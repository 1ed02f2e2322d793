import ModuleBundler.Path.Basic
import ModuleBundler.Number.Binary

/-!
# What file names say

A file name may carry a platform as its second-to-last extension (`Foo.ios.js`), and an asset
name may carry a pixel density (`icon@2x.ios.png`). Requires of a core runtime module that
nothing else resolves become empty modules; `isBuiltin` recognises those names, with or without
the `node:` scheme.
-/

namespace ModuleBundler

/-- The core runtime modules. -/
def builtinNames : List String :=
  ["assert", "buffer", "child_process", "cluster", "console", "constants", "crypto", "dgram",
   "dns", "domain", "events", "fs", "http", "https", "module", "net", "os", "path", "process",
   "punycode", "querystring", "readline", "repl", "stream", "string_decoder", "sys", "timers",
   "tls", "tty", "url", "util", "vm", "zlib"]

/-- Whether a name is a core runtime module, with or without the `node:` scheme. -/
def isBuiltin (name : String) : Bool :=
  let bare := if name.startsWith "node:" then String.ofList (name.toList.drop 5) else name
  builtinNames.contains bare

/-- The platform named by the second-to-last extension of the file name, when it is one of
`platforms` and something stands before it. -/
def platformExtension (path : Path) (platforms : List String) : Option String :=
  path.fileName?.bind fun name =>
    let parts := Text.splitOnChar name '.'
    if parts.length < 3 then none
    else
      let candidate := parts.getD (parts.length - 2) ""
      platforms.find? (· = candidate)

/-- Whether a text reads as a decimal number made of digits and at most one point. -/
def isScaleNumber (s : String) : Bool :=
  let cs := s.toList
  cs.all (fun c => c.isDigit || c = '.') && cs.any Char.isDigit && cs.count '.' ≤ 1

/-- The single-precision value of a decimal number of digits and at most one point. -/
def scaleValue (s : String) : Single :=
  let (whole, frac) := match Text.splitOnChar s '.' with
    | [w] => (w, "")
    | [w, f] => (w, f)
    | _ => ("", "")
  let digits := (whole ++ frac).toList.foldl (fun n d => 10 * n + (d.toNat - 48)) 0
  BinaryFloat.ofDecimal false digits (-(frac.length : Int))

/-- What an asset's file name says: density, bare name, type and platform. -/
structure AssetName where
  resolution : Single
  name : String
  assetType : String
  platform : Option String

/-- The text without a suffix, when it ends with it. -/
def stripSuffix? (s suffix : String) : Option String :=
  if s.endsWith suffix then some (String.ofList (s.toList.take (s.length - suffix.length)))
  else none

/-- Split `stem@<n>x` into the stem and the density `n`, when `n` is a number. -/
def splitScale (stem : String) : Option (String × Single) :=
  let cs := stem.toList
  match cs.reverse.findIdx? (· = '@') with
  | none => none
  | some fromEnd =>
    let at_ := cs.length - 1 - fromEnd
    let scale := String.ofList (cs.drop (at_ + 1))
    match stripSuffix? scale "x" with
    | some number =>
      if isScaleNumber number then some (String.ofList (cs.take at_), scaleValue number) else none
    | none => none

/-- Read an asset's file name. -/
def AssetName.parse (path : Path) (platforms : List String) : AssetName :=
  let fileName := path.fileName?.getD ""
  let assetType := path.extension?.getD ""
  let platform := platformExtension path platforms
  let stem := (stripSuffix? fileName ("." ++ assetType)).getD fileName
  let stem := match platform with
    | some p => (stripSuffix? stem ("." ++ p)).getD stem
    | none => stem
  match splitScale stem with
  | some (bare, r) => ⟨r, bare, assetType, platform⟩
  | none => ⟨BinaryFloat.ofDecimal false 1 0, stem, assetType, platform⟩

end ModuleBundler
