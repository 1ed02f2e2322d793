import ModuleBundler.Text.Split
import ModuleBundler.Text.Blank

/-!
# The leading docblock

A source file may open with a `/** ... */` comment whose lines carry directives: a line whose
text, after blanks and leading stars, starts with `@` names a directive and gives its value;
the lines after it, up to an empty line, continue that value, joined by single spaces. Only a
comment preceded by nothing but blanks (and byte-order marks) counts.

`@providesModule` (or `@provides`) gives a module its global name: the first word of the value.
`@extern` marks generated code whose requires are not followed.
-/

namespace ModuleBundler

/-- The directives of a file's leading docblock, by name. -/
structure Docblock where
  directives : List (String × String)
  deriving Inhabited

namespace Docblock

/-- The value of a directive. -/
def get? (d : Docblock) (key : String) : Option String := d.directives.lookup key

/-- Whether a directive is present. -/
def has (d : Docblock) (key : String) : Bool := (d.get? key).isSome

/-- Set a directive's value, replacing an earlier one of the same name. -/
def set (d : Docblock) (key value : String) : Docblock :=
  if d.has key then ⟨d.directives.map fun (k, v) => if k = key then (k, value) else (k, v)⟩
  else ⟨d.directives ++ [(key, value)]⟩

/-- The global name the file provides: the first word of `@providesModule`, or else of
`@provides`. -/
def providesModule? (d : Docblock) : Option String :=
  ((d.get? "providesModule").orElse fun _ => d.get? "provides").bind fun v => (Text.words v).head?

/-- Whether the file is marked `@extern`. -/
def isExtern (d : Docblock) : Bool := d.has "extern"

/-- A line's text inside the comment: blanks, then leading stars, then blanks again removed. -/
def lineText (line : String) : String :=
  Text.trim (String.ofList ((Text.trim line).toList.dropWhile (· = '*')))

/-- Read one line into the directives; `current` is the directive a continuation extends. -/
def readLine (acc : Docblock × Option String) (line : String) : Docblock × Option String :=
  let (d, current) := acc
  let text := lineText line
  match text.toList with
  | '@' :: rest =>
    let key := String.ofList (rest.takeWhile fun c => !Text.isBlank c)
    let value := Text.trim (String.ofList (rest.dropWhile fun c => !Text.isBlank c))
    (d.set key value, some key)
  | [] => (d, none)
  | _ =>
    match current with
    | some key =>
      match d.get? key with
      | some v => (d.set key (if v.isEmpty then text else v ++ " " ++ text), current)
      | none => (d, current)
    | none => (d, current)

/-- Find the first `*/` and return the text before it. -/
def beforeClose : List Char → Option (List Char)
  | [] => none
  | '*' :: '/' :: _ => some []
  | c :: rest => (beforeClose rest).map (c :: ·)

/-- The docblock at the top of a source text, empty when there is none. -/
def parse (source : String) : Docblock :=
  let afterMarks := source.toList.dropWhile (·.toNat = 0xFEFF)
  match Text.dropBlanks afterMarks with
  | '/' :: '*' :: '*' :: body =>
    match beforeClose body with
    | some inner =>
      (Text.splitOnChar (String.ofList inner) '\n').foldl readLine (⟨[]⟩, none) |>.1
    | none => ⟨[]⟩
  | _ => ⟨[]⟩

end Docblock

end ModuleBundler
