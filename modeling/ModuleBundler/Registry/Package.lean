import ModuleBundler.Json.Value
import ModuleBundler.Path.Basic

/-!
# Packages

A `package.json` names a package and its main module, and may replace requires made from inside
the package: its `react-native` field, or else its `browser` field, is either the main module
itself (a string) or a map from names and package-relative paths to other names, or to `false`
to suppress them.
-/

namespace ModuleBundler

/-- What a package does to a require. -/
inductive Redirect where
  | unchanged
  | to (name : String)
  | suppressed
  deriving DecidableEq, Inhabited

/-- One `package.json`: its path, its directory and its content. -/
structure Package where
  path : Path
  root : Path
  json : Json
  deriving Inhabited

namespace Package

/-- A package at a path with its content. -/
def make (path : Path) (json : Json) : Package := ⟨path, path.parent?.getD Path.empty, json⟩

/-- The package's name. -/
def name? (p : Package) : Option String := (p.json.field? "name").bind Json.str?

/-- The `react-native` field when present, otherwise `browser`. -/
def replacements? (p : Package) : Option Json :=
  (p.json.field? "react-native").orElse fun _ => p.json.field? "browser"

/-- The replacement map, when the replacements are an object. -/
def replacementMap? (p : Package) : Option (List (String × Json)) := p.replacements?.bind Json.obj?

/-- The text without a leading `./`, repeatedly. -/
def dropDotSlash (s : String) : String :=
  go (s.length + 1) s
where
  go : Nat → String → String
    | 0, s => s
    | fuel + 1, s => if s.startsWith "./" then go fuel (String.ofList (s.toList.drop 2)) else s

/-- The text without a suffix, when it has it. -/
def stripSuffix? (s suffix : String) : Option String :=
  if s.endsWith suffix then some (String.ofList (s.toList.take (s.length - suffix.length))) else none

/-- The main module's path, before extensions are tried. -/
def main (p : Package) : Path :=
  match p.replacements? with
  | some (.str m) => (p.root.join (Path.ofString m)).normalize
  | _ =>
    let given := ((p.json.field? "main").bind Json.str?).filter (!·.isEmpty)
    let main := given.getD "index"
    let main := match p.replacementMap? with
      | some map =>
        let stripped := ((stripSuffix? main ".js").orElse fun _ => stripSuffix? main ".json").getD main
        let bare := dropDotSlash main
        let candidates := [main, main ++ ".js", main ++ ".json", stripped, "./" ++ bare,
          "./" ++ bare ++ ".js", "./" ++ dropDotSlash stripped]
        (candidates.findSome? fun key => (map.lookup key).bind Json.str?).getD main
      | none => main
    (p.root.join (Path.ofString main)).normalize

/-- The package-relative extensions tried for an absolute require. -/
def redirectExts : List String := ["", ".js", ".json"]

/-- What the replacement map does to a require: bare names are looked up as they are, absolute
paths inside the package as `./relative` with each extension of `redirectExts`. -/
def redirectRequire (p : Package) (name : String) : Redirect :=
  match p.replacementMap? with
  | none => .unchanged
  | some map =>
    if !name.startsWith "/" then
      match map.lookup name with
      | some (.bool false) => .suppressed
      | some (.str t) => if t != name then .to t else .unchanged
      | _ => .unchanged
    else
      match p.root.relativeSlash? (Path.ofString name) with
      | none => .unchanged
      | some rel =>
        let rel := "./" ++ rel
        let found := redirectExts.findSome? fun ext =>
          match map.lookup (rel ++ ext) with
          | some (.bool false) => some Redirect.suppressed
          | some (.str t) => some (Redirect.to (p.root.join (Path.ofString t)).normalize.toString)
          | _ => none
        found.getD .unchanged

end Package

end ModuleBundler
