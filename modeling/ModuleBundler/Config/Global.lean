import ModuleBundler.Config.Options
import ModuleBundler.Disk.Basic
import ModuleBundler.Json.Shape
import ModuleBundler.Regex.Search

/-!
# The project-wide configuration

A `haste.json` file may list extra asset extensions, patterns of paths to ignore and redirects
of required names. The ignore patterns combine into one expression, `(^|/)(p1|p2|...)(/|$)`, that
matches a path when one of them matches a whole run of its components. A redirect sends a name
to another name, or suppresses it (`false`); a target starting with `.` is taken relative to the
configuration's directory.
-/

namespace ModuleBundler

/-- Where a project-wide redirect sends a name. -/
inductive RedirectTarget where
  /-- Another name or path. -/
  | to (name : String)
  /-- A boolean: `false` suppresses the dependency, `true` leaves it alone. -/
  | suppress (flag : Bool)
  deriving DecidableEq, Inhabited

/-- The project-wide configuration. -/
structure GlobalConfig where
  /-- The configuration file, as its path was written. -/
  path : Option String
  assetExts : Option (List String)
  ignoredPatterns : Option Regex
  /-- Redirects by name, sorted by name. -/
  redirect : List (String × RedirectTarget)

namespace GlobalConfig

/-- The configuration of a project without a configuration file. -/
def default : GlobalConfig := ⟨none, none, none, []⟩

/-- The file name of the configuration. -/
def fileName : String := "haste.json"

/-- The redirect configured for a name. -/
def redirectFor (g : GlobalConfig) (name : String) : Option RedirectTarget := g.redirect.lookup name

/-- Read a redirect target. -/
def targetOfJson (j : Json) : Except String RedirectTarget :=
  match j with
  | .str s => .ok (.to s)
  | .bool b => .ok (.suppress b)
  | _ => .error "data did not match any variant of untagged enum RedirectTarget"

/-- The fields of a configuration file, before patterns are compiled and targets placed. -/
structure Raw where
  assetExts : Option (List String)
  ignoredPatterns : Option (List String)
  redirect : List (String × RedirectTarget)

/-- The shape of a configuration file: a record of the extra asset extensions, the ignore
patterns and the redirects, each redirect target a string or a boolean. -/
def rawShape : Json.Shape :=
  .record "RawGlobalConfig"
    [("assetExts", .optional (.list .string), none),
     ("ignoredPatterns", .optional (.list .string), none),
     ("redirect", .map (.oneOf "RedirectTarget" [.string, .boolean]), some (.obj []))]

/-- Read the fields of a configuration file. -/
def rawOfJson (j : Json) : Except String Raw := do
  if !(j matches .obj _) then throw (Json.invalidType j "struct RawGlobalConfig")
  let assetExts ← Json.optField j "assetExts" Json.toStrings
  let ignored ← Json.optField j "ignoredPatterns" Json.toStrings
  let redirect ← Json.fieldOr j "redirect" (fun r => do
    let fs ← Json.toFields r
    fs.mapM fun (k, v) => do return (k, ← targetOfJson v)) []
  return ⟨assetExts, ignored, redirect⟩

/-- The one expression matching a path that has a run of components matching a pattern. -/
def combinedPattern (patterns : List String) : String :=
  "(^|/)(" ++ "|".intercalate patterns ++ ")(/|$)"

/-- Load a configuration file from its path as written; the file is looked up the way the
operating system looks it up, and errors name the path as written. -/
def load (disk : Disk) (path : String) : Except Error GlobalConfig := do
  let content ← match disk.resolveText path >>= disk.readText with
    | .ok s => pure s
    | .error e => throw (.configRead path e)
  let json ← match Json.readAs rawShape content with
    | .ok j => pure j
    | .error m => throw (.configParse path m)
  let raw ← match rawOfJson json with
    | .ok r => pure r
    | .error m => throw (.configParse path m)
  let ignored ← match raw.ignoredPatterns with
    | some ps@(_ :: _) =>
      let pattern := combinedPattern ps
      match Regex.compile pattern with
      | .ok re => pure (some re)
      | .error e => throw (.pattern pattern e.message)
    | _ => pure none
  let dir := (Path.ofString path).parent?.getD (Path.ofString ".")
  let redirect := raw.redirect.map fun (name, target) =>
    match target with
    | .to t => if t.startsWith "." then (name, .to (dir.join (Path.ofString t)).normalize.toString)
      else (name, target)
    | other => (name, other)
  return ⟨some path, raw.assetExts, ignored, redirect⟩

/-- Load `haste.json` from a directory, its path written as given, if it is a file there; else
the empty configuration. -/
def discover (disk : Disk) (dir : String) : Except Error GlobalConfig :=
  let path := joinText dir fileName
  let isFile := match disk.resolveText path >>= disk.status with
    | .ok (.file _ _) => true
    | _ => false
  if isFile then load disk path else .ok default

end GlobalConfig

end ModuleBundler
