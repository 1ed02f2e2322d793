import ModuleBundler.Script.Common
import ModuleBundler.Source.Docblock
import ModuleBundler.Source.Requires
import ModuleBundler.Source.Wrap
import ModuleBundler.Module.Naming
import ModuleBundler.Config.Global
import ModuleBundler.Cache.Memo
import ModuleBundler.Vfs.Ignore
import ModuleBundler.Bundle.Artifact

/-!
# The scripted interface: stateless requests

Requests that exercise one piece of the engine on its own: docblocks, declared dependencies,
file-name conventions, paths, wrapping, keys, ignore rules, the project configuration, the
content memo and the bundle artifacts.
-/

namespace ModuleBundler

namespace Script

/-- The directives a docblock request reports by default. -/
def defaultDocblockKeys : List String :=
  ["providesModule", "provides", "extern", "flow", "format", "jsx"]

/-- The platforms file-name requests recognise by default. -/
def defaultPlatforms : List String := ["ios", "android", "web"]

/-- A docblock's directives, global name and extern mark. -/
def docblockAnswer (req : Json) : Json :=
  let d := Docblock.parse (strOr req "source" "")
  let keys := strsOr req "keys" defaultDocblockKeys
  .obj [("values", Json.sortedObject (keys.map fun k => (k, Json.optStr (d.get? k)))),
    ("providesModule", Json.optStr d.providesModule?), ("isExtern", .bool d.isExtern)]

/-- The dependencies a source declares. -/
def extractAnswer (req : Json) : Json :=
  let deps := extractRequires (strOr req "source" "")
  .obj [("sync", Json.strs deps.sync), ("async", .arr (deps.asyncGroups.map Json.strs))]

/-- What an asset's file name says. -/
def assetNameAnswer (req : Json) : Json :=
  let info := AssetName.parse (Path.ofString (strOr req "path" "")) (strsOr req "platforms" defaultPlatforms)
  .obj [("resolution", Json.single info.resolution), ("name", .str info.name),
    ("type", .str info.assetType), ("platform", Json.optStr info.platform)]

/-- A path's normal form, and how it lies below a root. -/
def pathAnswer (req : Json) : Json :=
  let p := Path.ofString (strOr req "path" "")
  let base := [("normalize", Json.str p.normalize.toString)]
  match optStr req "root" with
  | some r =>
    let root := Path.ofString r
    .obj (base ++ [("isDescendant", .bool (root.isDescendant p)), ("relative", Json.optStr (root.relativeSlash? p))])
  | none => .obj base

/-- The specifier map of a wrap request. -/
def resolvedMap (req : Json) : List (String × String) :=
  match req.field? "resolved" with
  | some (.obj fs) => fs.filterMap fun (k, v) => v.str?.map (k, ·)
  | _ => []

/-- A module's rewritten code and its three wrappings. -/
def wrapAnswer (req : Json) : Json :=
  let code := strOr req "code" ""
  let name := strOr req "name" ""
  let rewritten := Wrap.resolveRequires code (resolvedMap req)
  .obj [("rewritten", .str rewritten), ("define", .str (Wrap.defineModule name rewritten)),
    ("accept", .str (Wrap.acceptModule name rewritten)), ("polyfill", .str (Wrap.wrapPolyfill code))]

/-- The options a bundle request starts from before its own fields are merged in. -/
def bundleOptionBase : List (String × Json) := [("dev", .bool true), ("runModule", .bool true)]

/-- Bundle options from request fields merged over the base, leaving out `skip`. -/
def bundleOptionsOf (fields : List (String × Json)) (skip : List String) : Except String BundleOptions :=
  BundleOptions.ofJson (Json.sortedObject (bundleOptionBase ++ fields.filter fun (k, _) => !skip.contains k))

/-- The cache key of bundle options. -/
def bundleKeyAnswer (req : Json) : Json :=
  match bundleOptionsOf ((req.get "options").obj?.getD []) [] with
  | .ok o => .str o.cacheKey
  | .error m => badInput m

/-- The version key of a memo. -/
def versionKeyAnswer (req : Json) : Json :=
  let mtime := match req.field? "transformerMtime" with
    | some (.num (.nat n)) => some (Disk.mtimeAt n)
    | _ => none
  .str (ContentCache.versionKey (strOr req "version" "") (strsOr req "roots" []) mtime)

/-- Compile one pattern, or answer the pattern that failed. -/
def compileOrAnswer (p : String) : Except Json Regex :=
  match Regex.compile p with
  | .ok re => .ok re
  | .error _ => .error (.obj [("error", .str "Pattern"), ("pattern", .str p)])

/-- Which paths a set of ignore rules excludes. -/
def ignoreAnswer (req : Json) : Json :=
  let build : Except Json IgnoreRules := do
    let rules ← match IgnoreRules.fromPatterns (strsOr req "patterns" []) with
      | .ok r => pure r
      | .error (p, _) => throw (.obj [("error", .str "Pattern"), ("pattern", .str p)])
    let scopedSpecs := ((req.get "scoped").arr?).getD []
    scopedSpecs.foldlM (fun (r : IgnoreRules) spec => do
      let re ← compileOrAnswer (strOr spec "regex" "")
      return r.withScoped re ((strsOr spec "roots" []).map Path.ofString)) rules
  match build with
  | .ok rules =>
    .arr ((strsOr req "paths" []).map fun p => .bool (rules.isIgnoredText p))
  | .error j => j

/-- A redirect target as JSON. -/
def targetJson : RedirectTarget → Json
  | .to s => .str s
  | .suppress b => .bool b

/-- Load a project configuration and test paths against its ignore pattern. -/
def globalConfigAnswer (w : Workspace) (req : Json) : Json :=
  let written := w.rawJoin (strOr req "path" GlobalConfig.fileName)
  let path := Path.ofString written
  let disk := w.freshDisk
  let disk := match optStr req "text" with
    | some text =>
      match disk.createDirAll (path.parent?.getD path) >>= fun d => d.writeAt path text.toUTF8.toList Disk.setupMtime with
      | .ok d => d
      | .error _ => disk
    | none => disk
  let loaded := if boolOr req "discover" false then GlobalConfig.discover disk (parentText written)
    else GlobalConfig.load disk written
  match loaded with
  | .error e => errorJson e
  | .ok g =>
    .obj [("path", Json.optStr g.path),
      ("assetExts", Json.opt Json.strs g.assetExts),
      ("ignoredPattern", Json.optStr (g.ignoredPatterns.map Regex.source)),
      ("redirect", .obj (g.redirect.map fun (k, t) => (k, targetJson t))),
      ("test", .arr ((strsOr req "test" []).map fun t => Json.opt (fun re => .bool (Regex.isMatch re t)) g.ignoredPatterns))]

/-- How a memo request reads values. -/
def readAs (kind : String) (j : Json) : Except String Json :=
  match kind with
  | "strings" => (Json.toStrings j).map Json.strs
  | "u64" => (Json.toU64 j).map Json.nat
  | "bool" => (Json.toBool j).map Json.bool
  | "string" => (Json.toStr j).map Json.str
  | _ => .ok j

/-- One step against a memo. -/
def cacheStep (c : ContentCache) (step : Json) : Json × ContentCache :=
  let path := Path.ofString (strOr step "path" "/virtual/none.js")
  let field := strOr step "field" "f"
  match strOr step "do" "" with
  | "get" =>
    let kind := strOr step "as" "value"
    let cached := (c.lookup path field).bind fun j => (readAs kind j).toOption
    match cached with
    | some v => (.obj [("value", v), ("computed", .bool false)], c)
    | none =>
      let computed : Except String Json := match optStr step "fail" with
        | some m => .error m
        | none => readAs kind (step.get "value")
      match computed with
      | .ok v => (.obj [("value", v), ("computed", .bool true)], c.store path field v none)
      | .error m => (.obj [("failed", .str m), ("computed", .bool true)], c)
  | "contains" => (.bool (c.contains path field), c)
  | "invalidate" =>
    let (removed, c) := c.invalidate path
    (.bool removed, c)
  | "clear" => (.null, c.clear)
  | "len" => (.obj [("len", Json.nat c.len), ("isEmpty", .bool (c.len = 0))], c)
  | other => (badInput ("unknown cache step `" ++ other ++ "`"), c)

/-- A sequence of memo steps on a fresh memo. -/
def cacheAnswer (req : Json) : Json :=
  let steps := ((req.get "steps").arr?).getD []
  let (out, _) := steps.foldl (fun (acc : List Json × ContentCache) s =>
    let (j, c) := cacheStep acc.2 s
    (j :: acc.1, c)) ([], ContentCache.inMemory)
  .arr out.reverse

/-- A module described by a request. -/
def transportOf (spec : Json) : ModuleTransport :=
  let code := strOr spec "code" ""
  let deps := match spec.field? "dependencies" with
    | some (.obj fs) => fs.filterMap fun (k, v) => v.str?.map (k, ·)
    | _ => []
  let map := match spec.field? "map" with
    | some .null => none
    | other => other
  ⟨strOr spec "name" "", code, map, strOr spec "sourceCode" code, strOr spec "sourcePath" "",
    boolOr spec "virtual" false, boolOr spec "wrapped" false, deps⟩

/-- The three artifacts an artifact request drives. -/
structure Artifacts where
  bundle : Bundle
  prepack : PrepackBundle
  hmr : HmrBundle

/-- Null, or the error record. -/
def unitOr (r : Except Error Unit) : Json :=
  match r with
  | .ok () => .null
  | .error e => errorJson e

/-- One step against the artifacts. -/
def artifactStep (a : Artifacts) (step : Json) : Json × Artifacts :=
  let update {β : Type} (r : Except Error β) (set : β → Artifacts) : Json × Artifacts :=
    match r with
    | .ok b => (.null, set b)
    | .error e => (errorJson e, a)
  match strOr step "do" "" with
  | "add" => update (a.bundle.addModule (transportOf step)) fun b => { a with bundle := b }
  | "asset" => (.null, { a with bundle := a.bundle.addAsset (step.get "value") })
  | "main" => (.null, { a with bundle := { a.bundle with mainModuleId := some (strOr step "id" "") } })
  | "prepended" =>
    (.null, { a with bundle := { a.bundle with numPrepended := ((step.get "n").nat?).getD 0 } })
  | "finalize" =>
    update (a.bundle.finalize (boolOr step "run" true) (strsOr step "before" [])) fun b => { a with bundle := b }
  | "source" => (.str (a.bundle.source (boolOr step "inline" false)), a)
  | "map" => (a.bundle.sourceMap, a)
  | "state" =>
    let b := a.bundle
    (.obj [("finalized", .bool b.finalized), ("mainModuleId", Json.optStr b.mainModuleId),
      ("numPrepended", Json.nat b.numPrepended), ("modulePaths", Json.strs b.modulePaths),
      ("names", Json.strs (b.modules.toList.map (·.name))), ("assets", .arr b.assets.toList),
      ("modules", .arr (b.modules.toList.map ModuleTransport.toJson))], a)
  | "prepack_add" => update (a.prepack.addModule (transportOf step)) fun p => { a with prepack := p }
  | "prepack_polyfill" =>
    update (a.prepack.addPolyfill (strOr step "code" "")) fun p => { a with prepack := p }
  | "prepack_finalize" => update (a.prepack.finalize (optStr step "id")) fun p => { a with prepack := p }
  | "prepack_json" => (a.prepack.toJson, a)
  | "hmr_add" => (.null, { a with hmr := a.hmr.addModule (transportOf step) })
  | "hmr_state" =>
    (.obj [("names", Json.strs a.hmr.names), ("source", .str a.hmr.source), ("isEmpty", .bool a.hmr.isEmpty)], a)
  | other => (badInput ("unknown artifact step `" ++ other ++ "`"), a)

/-- A sequence of artifact steps. -/
def artifactAnswer (req : Json) : Json :=
  let steps := ((req.get "steps").arr?).getD []
  let start : Artifacts := ⟨Bundle.new (optStr req "sourceMapUrl"), PrepackBundle.new, HmrBundle.new⟩
  let (out, _) := steps.foldl (fun (acc : List Json × Artifacts) s =>
    let (j, a) := artifactStep acc.2 s
    (j :: acc.1, a)) ([], start)
  .arr out.reverse

end Script

end ModuleBundler
