import ModuleBundler.Text.Split
import ModuleBundler.Json.Decode
import ModuleBundler.Error

/-!
# Transformers

A transformer compiles one source file for a platform and a mode. Its results are memoised in
the content memo under a field naming the options, `transformed:<platform or ->:<dev>:<minify>`,
as a record `{code, map, sourceCode, sourcePath}`.

Four transformers come with the engine. `identity` returns the source unchanged. The others
first refuse a source containing the marker `@@transform-error@@`, reporting `Unexpected token`
at the marker's line and column, and take `slowDuration` milliseconds on a source containing
`@@transform-slow@@`; then `checking` returns the source unchanged, `mapping` adds a one-line
source map, and `annotate` prefixes the code with a comment naming its memo field.
-/

namespace ModuleBundler

/-- The options a transformer runs with. -/
structure TransformOptions where
  platform : Option String
  dev : Bool
  minify : Bool
  deriving DecidableEq, Inhabited

/-- The memo field of a transform with these options. -/
def TransformOptions.cacheField (o : TransformOptions) : String :=
  "transformed:" ++ o.platform.getD "-" ++ ":" ++ (if o.dev then "1" else "0") ++ ":" ++
    (if o.minify then "1" else "0")

/-- What a transformer makes of a source. -/
structure Transformed where
  code : String
  map : Option Json
  sourceCode : String
  sourcePath : String
  deriving Inhabited

namespace Transformed

/-- The memo record. -/
def toJson (t : Transformed) : Json :=
  .obj [("code", .str t.code), ("map", Json.opt id t.map), ("sourceCode", .str t.sourceCode),
    ("sourcePath", .str t.sourcePath)]

/-- Read a memo record. -/
def ofJson (j : Json) : Except String Transformed := do
  if !(j matches .obj _) then throw (Json.invalidType j "struct Transformed")
  let code ← Json.reqField j "code" Json.toStr
  let map := match j.field? "map" with
    | some .null | none => none
    | some v => some v
  let sourceCode ← Json.reqField j "sourceCode" Json.toStr
  let sourcePath ← Json.reqField j "sourcePath" Json.toStr
  return ⟨code, map, sourceCode, sourcePath⟩

end Transformed

/-- The transformers that come with the engine. -/
inductive Transformer where
  | identity
  | checking
  | mapping
  | annotate
  deriving DecidableEq, Inhabited

namespace Transformer

/-- Read a transformer from its name. -/
def ofName? : String → Option Transformer
  | "identity" => some .identity
  | "checking" => some .checking
  | "mapping" => some .mapping
  | "annotate" => some .annotate
  | _ => none

/-- The marker of a source the checking transformers refuse. -/
def errorMarker : String := "@@transform-error@@"

/-- The marker of a source the checking transformers are slow on. -/
def slowMarker : String := "@@transform-slow@@"

/-- How long a checking transformer takes on a slow source, in milliseconds. -/
def slowDuration : Nat := 300

/-- The line and column, counted from one, of the first occurrence of `marker`. -/
def markerPosition? (source marker : String) : Option (Nat × Nat) :=
  match source.splitOn marker with
  | before :: _ :: _ =>
    let lines := Text.splitOnChar before '\n'
    some (lines.length, (lines.getLast?.getD "").length + 1)
  | _ => none

/-- Transform a source. -/
def transform (t : Transformer) (path : Path) (source : String) (o : TransformOptions) :
    Except TransformError Transformed :=
  let plain : Transformed := ⟨source, none, source, path.toString⟩
  match t with
  | .identity => .ok plain
  | _ =>
    match markerPosition? source errorMarker with
    | some (line, col) => .error ⟨path, some line, some col, "Unexpected token"⟩
    | none =>
      match t with
      | .mapping =>
        .ok { plain with map := some (.obj [("mappings", .str "AAAA"), ("names", .arr []),
          ("sources", .arr [.str path.toString]), ("version", Json.nat 3)]) }
      | .annotate => .ok { plain with code := "/* " ++ o.cacheField ++ " */\n" ++ source }
      | _ => .ok plain

/-- How long transforming a source takes, in milliseconds. -/
def duration (t : Transformer) (source : String) : Nat :=
  if t != .identity && (source.splitOn slowMarker).length > 1 then slowDuration else 0

end Transformer

end ModuleBundler
