import ModuleBundler.Json.Decode

/-!
# Options

`PackagerOptions` hold for a whole server run: the roots to crawl, the extensions of sources and
assets, the platforms, what to exclude, extra polyfills, where to persist the content cache, and
the transform timeout. `BundleOptions` describe one bundle request; their compact JSON form, with
fields in declaration order, is the key under which a built bundle is cached.

Both read from JSON field by field: an absent field keeps its default, and a field of the wrong
type is refused.
-/

namespace ModuleBundler

/-- Options for one server run. -/
structure PackagerOptions where
  projectRoots : List String
  internalRoots : List Path
  projectExts : List String
  assetExts : List String
  platforms : List String
  preferNativePlatform : Bool
  fatalUnresolvedPlatforms : List String
  blacklist : List String
  /-- Extra polyfill files, as written. -/
  polyfills : List String
  mocksPattern : Option String
  cacheVersion : String
  cacheDir : Option Path
  resetCache : Bool
  transformerPath : Option Path
  transformTimeoutMs : Nat
  deriving Inhabited

namespace PackagerOptions

/-- The defaults. -/
def default : PackagerOptions where
  projectRoots := []
  internalRoots := []
  projectExts := ["js", "jsx", "json"]
  assetExts := ["png", "jpg", "jpeg", "gif", "webp", "ttf", "otf"]
  platforms := ["ios", "android", "web"]
  preferNativePlatform := true
  fatalUnresolvedPlatforms := ["ios"]
  blacklist := []
  polyfills := []
  mocksPattern := none
  cacheVersion := "1.0"
  cacheDir := none
  resetCache := false
  transformerPath := none
  transformTimeoutMs := 301000

/-- Source and asset extensions together, sources first, each once. -/
def allExts (o : PackagerOptions) : List String :=
  o.assetExts.foldl (fun acc e => if acc.contains e then acc else acc ++ [e]) o.projectExts

/-- Whether an unresolvable require fails a request on this platform. -/
def isFatalUnresolved (o : PackagerOptions) (platform : Option String) : Bool :=
  match platform with
  | some p => o.fatalUnresolvedPlatforms.contains p
  | none => false

/-- Paths read from a list of strings. -/
def toPaths (j : Json) : Except String (List Path) :=
  (Json.toStrings j).map (·.map Path.ofString)

/-- Read options from JSON; absent fields keep their defaults. -/
def ofJson (j : Json) : Except String PackagerOptions := do
  let d := default
  if !(j matches .obj _) then throw (Json.invalidType j "struct PackagerOptions")
  return {
    projectRoots := ← Json.fieldOr j "projectRoots" Json.toStrings d.projectRoots
    internalRoots := ← Json.fieldOr j "internalRoots" toPaths d.internalRoots
    projectExts := ← Json.fieldOr j "projectExts" Json.toStrings d.projectExts
    assetExts := ← Json.fieldOr j "assetExts" Json.toStrings d.assetExts
    platforms := ← Json.fieldOr j "platforms" Json.toStrings d.platforms
    preferNativePlatform := ← Json.fieldOr j "preferNativePlatform" Json.toBool d.preferNativePlatform
    fatalUnresolvedPlatforms := ← Json.fieldOr j "fatalUnresolvedPlatforms" Json.toStrings d.fatalUnresolvedPlatforms
    blacklist := ← Json.fieldOr j "blacklist" Json.toStrings d.blacklist
    polyfills := ← Json.fieldOr j "polyfills" Json.toStrings d.polyfills
    mocksPattern := ← Json.optField j "mocksPattern" Json.toStr
    cacheVersion := ← Json.fieldOr j "cacheVersion" Json.toStr d.cacheVersion
    cacheDir := (← Json.optField j "cacheDir" Json.toStr).map Path.ofString
    resetCache := ← Json.fieldOr j "resetCache" Json.toBool d.resetCache
    transformerPath := (← Json.optField j "transformerPath" Json.toStr).map Path.ofString
    transformTimeoutMs := ← Json.fieldOr j "transformTimeoutMs" Json.toU64 d.transformTimeoutMs }

end PackagerOptions

/-- Options of one bundle request. -/
structure BundleOptions where
  /-- The entry file, as written. -/
  entryFile : String
  platform : Option String
  dev : Bool
  minify : Bool
  runModule : Bool
  runBeforeMainModule : List String
  unbundle : Bool
  inlineSourceMap : Bool
  deriving Inhabited, DecidableEq

namespace BundleOptions

/-- Options for an entry file: a development bundle that runs its main module. -/
def forEntry (entry : String) : BundleOptions :=
  ⟨entry, none, true, false, true, [], false, false⟩

/-- The options as a record, fields in declaration order. -/
def toJson (o : BundleOptions) : Json :=
  .obj [("entryFile", .str o.entryFile), ("platform", Json.optStr o.platform), ("dev", .bool o.dev),
    ("minify", .bool o.minify), ("runModule", .bool o.runModule),
    ("runBeforeMainModule", Json.strs o.runBeforeMainModule), ("unbundle", .bool o.unbundle),
    ("inlineSourceMap", .bool o.inlineSourceMap)]

/-- The key a built bundle is cached under: the compact record. -/
def cacheKey (o : BundleOptions) : String := Json.compact o.toJson

/-- Read options from JSON; absent fields take `false`, nothing or empty. -/
def ofJson (j : Json) : Except String BundleOptions := do
  if !(j matches .obj _) then throw (Json.invalidType j "struct BundleOptions")
  return {
    entryFile := ← Json.fieldOr j "entryFile" Json.toStr ""
    platform := ← Json.optField j "platform" Json.toStr
    dev := ← Json.fieldOr j "dev" Json.toBool false
    minify := ← Json.fieldOr j "minify" Json.toBool false
    runModule := ← Json.fieldOr j "runModule" Json.toBool false
    runBeforeMainModule := ← Json.fieldOr j "runBeforeMainModule" Json.toStrings []
    unbundle := ← Json.fieldOr j "unbundle" Json.toBool false
    inlineSourceMap := ← Json.fieldOr j "inlineSourceMap" Json.toBool false }

end BundleOptions

end ModuleBundler
