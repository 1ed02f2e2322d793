import ModuleBundler.Json.Value
import ModuleBundler.Number.Shortest

/-!
# Writing JSON

Strings are quoted with `"`, and inside them a quote and a backslash are escaped, the five
controls with a short escape (`\b \f \n \r \t`) take it, and every other control below U+0020 is
written `\u00xx` with lowercase hex digits; everything else, U+2028 included, stands as it is.

`Json.compact` writes no blanks at all. `Json.pretty` puts every item and field on a line of its
own, indented two spaces per level, with `": "` after a key; empty arrays and objects stay `[]`
and `{}`.
-/

namespace ModuleBundler

namespace Json

/-- The hex digit of a value below sixteen, lowercase. -/
def hexDigit (n : Nat) : Char :=
  if n < 10 then Char.ofNat (48 + n) else Char.ofNat (87 + n)

/-- The escape of one character inside a quoted string. -/
def escapeChar (c : Char) : List Char :=
  if c = '"' then ['\\', '"']
  else if c = '\\' then ['\\', '\\']
  else if c = '\n' then ['\\', 'n']
  else if c = '\r' then ['\\', 'r']
  else if c = '\t' then ['\\', 't']
  else if c.toNat = 8 then ['\\', 'b']
  else if c.toNat = 12 then ['\\', 'f']
  else if c.toNat < 32 then ['\\', 'u', '0', '0', hexDigit (c.toNat / 16), hexDigit (c.toNat % 16)]
  else [c]

/-- A string in quotes, escaped. -/
def quote (s : String) : String :=
  String.ofList ('"' :: (s.toList.flatMap escapeChar ++ ['"']))

/-- The text of a number. -/
def numberText : JsonNumber → String
  | .nat n => toString n
  | .negative n => toString n
  | .double x => (x.toText?).getD "null"

mutual

/-- The value with no blanks. -/
def compact : Json → String
  | .null => "null"
  | .bool true => "true"
  | .bool false => "false"
  | .num n => numberText n
  | .str s => quote s
  | .arr items => "[" ++ ",".intercalate (compactItems items) ++ "]"
  | .obj fields => "\x7b" ++ ",".intercalate (compactFields fields) ++ "\x7d"

/-- The items of an array, each written compactly. -/
def compactItems : List Json → List String
  | [] => []
  | j :: rest => compact j :: compactItems rest

/-- The fields of an object, each written compactly. -/
def compactFields : List (String × Json) → List String
  | [] => []
  | (k, v) :: rest => (quote k ++ ":" ++ compact v) :: compactFields rest

end

/-- Two blanks per level. -/
def indentText (level : Nat) : String := String.ofList (List.replicate (2 * level) ' ')

mutual

/-- The value over several lines, its inner lines indented from `level`. -/
def prettyAt (level : Nat) : Json → String
  | .arr [] => "[]"
  | .obj [] => "\x7b\x7d"
  | .arr items =>
    "[\n" ++ ",\n".intercalate (prettyItems (level + 1) items) ++ "\n" ++ indentText level ++ "]"
  | .obj fields =>
    "\x7b\n" ++ ",\n".intercalate (prettyFields (level + 1) fields) ++ "\n" ++ indentText level ++ "\x7d"
  | j => compactScalar j

/-- The items of an array on their own lines. -/
def prettyItems (level : Nat) : List Json → List String
  | [] => []
  | j :: rest => (indentText level ++ prettyAt level j) :: prettyItems level rest

/-- The fields of an object on their own lines. -/
def prettyFields (level : Nat) : List (String × Json) → List String
  | [] => []
  | (k, v) :: rest => (indentText level ++ quote k ++ ": " ++ prettyAt level v) :: prettyFields level rest

/-- A value that is not a container. -/
def compactScalar : Json → String
  | .null => "null"
  | .bool true => "true"
  | .bool false => "false"
  | .num n => numberText n
  | .str s => quote s
  | _ => ""

end

/-- The value over several lines with two blanks per level. -/
def pretty (j : Json) : String := prettyAt 0 j

end Json

end ModuleBundler
