import ModuleBundler.Engine.Graph
import ModuleBundler.Bundle.PolyfillText
import ModuleBundler.Bundle.Artifact
import ModuleBundler.Bundle.Image
import ModuleBundler.Text.Blank

/-!
# Building bundles

A build resolves the entry, puts the polyfill chain in front of its dependencies, loads every
module and wraps each in its registration call with its requires rewritten to module names.

Loading a module has a part that runs at once (the abort check, the module's name, the code of
null, polyfill and JSON modules) and a part that runs in the background (transforming a source,
through the content memo, and describing an asset). The modules start in order; the first that
fails at once stops the later ones from starting, while the background work of the earlier ones
still runs. Without such a failure every module's background work runs, and the first failure in
module order is the build's. A transform that outlasts the configured timeout fails and is not
memoised.

A build can be aborted through its handle; it checks the handle before resolving, before loading,
as each module starts, and before assembling.
-/

namespace ModuleBundler

open EngineM

/-- The virtual directory of the built-in polyfills. -/
def polyfillDir : String := "/__haste__/polyfills"

/-- The polyfill modules in load order: the prelude, the module system, the language polyfills,
then the extra files; each depends on every one before it. An extra file outside the mirror is
read from the disk. -/
def polyfillModules (dev unbundle : Bool) (extra : List String) : EngineM (List Nat) := do
  let prelude := if dev then ("prelude_dev.js", Polyfill.preludeDev) else ("prelude.js", Polyfill.prelude)
  let system := if unbundle then ("require-unbundle.js", Polyfill.requireUnbundle)
    else ("require.js", Polyfill.requireSystem)
  let builtin := (prelude :: system :: Polyfill.language).map fun (name, code) =>
    let p := (Path.ofString polyfillDir).push name
    (p, p.toString, code)
  let extras ← extra.mapM fun raw => do
    let p := Path.ofString raw
    match ← attempt (readFile p) with
    | .ok code => pure (p, raw, code)
    | .error _ =>
      match (← get).disk.readLossy p.normalize with
      | .ok code => pure (p, raw, code)
      | .error e => fail (.internal ("Failed to read polyfill " ++ raw ++ ": " ++ e.message))
  let (_, ids) ← (builtin ++ extras).foldlM (fun (ids, out) (p, pid, code) => do
      let n ← createPolyfill p pid ids code
      pure (ids ++ [pid], out ++ [n])) (([] : List String), ([] : List Nat))
  return ids

/-- Fail when the build's handle was aborted; a build without a handle never is. -/
def checkAbort (handle : Option Nat) : EngineM Unit := do
  if let some h := handle then
    if (← get).aborted.contains h then fail .aborted

/-- Abort a handle. -/
def abortHandle (h : Nat) : EngineM Unit :=
  modify fun e => if e.aborted.contains h then e else { e with aborted := h :: e.aborted }

/-- A fresh abort handle. -/
def newHandle : EngineM Nat := do
  let e ← get
  set { e with nextHandle := e.nextHandle + 1 }
  return e.nextHandle

/-- Ordered dependencies of an entry path with the polyfill chain in front, finalized. -/
def bundlerDependencies (entry : Path) (platform : Option String) (dev unbundle : Bool) :
    EngineM Response := do
  let response ← graphDependencies entry.toString platform
  let polyfills ← polyfillModules dev unbundle (← read).opts.polyfills
  return { response with
    dependencies := polyfills.toArray ++ response.dependencies
    numPrepended := response.numPrepended + polyfills.length
    finalized := true }

/-- Resolve a bundle request: its dependencies and the transform options. -/
def resolveRequest (opts : BundleOptions) : EngineM (Response × TransformOptions) := do
  let entry ← entryPath opts.entryFile
  let platform ← resolvePlatform opts.platform entry
  let response ← bundlerDependencies entry platform opts.dev opts.unbundle
  return (response, ⟨platform, opts.dev, opts.minify⟩)

/-- A module's code before wrapping. -/
structure LoadedModule where
  name : String
  code : String
  map : Option Json
  sourceCode : String
  sourcePath : String
  isVirtual : Bool
  isPolyfill : Bool
  asset : Option Json

/-- The module record of loaded code with its final code. -/
def LoadedModule.transport (l : LoadedModule) (code : String) (wrapped : Bool)
    (deps : List (String × String)) : ModuleTransport :=
  ⟨l.name, code, l.map, l.sourceCode, l.sourcePath, l.isVirtual, wrapped, deps⟩

/-- Generated code for a module no file backs as it is. -/
def generatedModule (name : String) (m : Module) (code : String) : LoadedModule :=
  ⟨name, code, none, code, m.path.toString, true, false, none⟩

/-- A module whose loading has started. -/
inductive LoadStep where
  | ready (l : LoadedModule)
  | transform (m : Module) (name : String)
  | asset (m : Module) (name : String) (resolution : Single)

/-- The part of loading that runs at once. -/
def startLoad (handle : Option Nat) (id : Nat) : EngineM LoadStep := do
  checkAbort handle
  let name ← moduleName id
  let m ← moduleOf id
  match m.kind with
  | .null _ => return .ready (generatedModule name m nullModuleCode)
  | .polyfill _ _ code => return .ready { generatedModule name m code with isPolyfill := true }
  | .asset resolution _ _ => return .asset m name resolution
  | .source =>
    if m.isJson then
      let content ← readFile m.path
      return .ready (generatedModule name m ("module.exports = " ++ Text.trimEnd content ++ ";"))
    else return .transform m name

/-- Transform a source through the memo; a transform longer than the timeout fails. The
transform that timed out runs on in the background and memoises its result only when it ends,
which is later than the calls that follow it (a later call for the same source transforms it
anew and times out again), so no step here sees that store. -/
def transformModule (m : Module) (opts : TransformOptions) : EngineM Transformed := do
  let ctx ← read
  memoised m.path opts.cacheField Transformed.ofJson (fun t => some t.toJson) do
    let source ← readFile m.path
    let limit := ctx.opts.transformTimeoutMs
    if ctx.transformer.duration source > limit then
      fail (.transform ⟨m.path, none, none, "Transform timed out after " ++ toString limit ++ "ms"⟩)
    lift .transform (ctx.transformer.transform m.path source opts)

/-- The descriptor an asset registers: where it lives, where it is served, its size in points
when the image reads, and its variants. -/
def assetDescriptor (path : Path) (resolution : Single) (platform : Option String) : EngineM Json := do
  let ctx ← read
  let e ← get
  let data ← lift .io (ctx.assets.assetData e.vfs e.disk path platform)
  let dir := path.parent?.getD path
  let relDir := (e.vfs.roots.findSome? fun r => r.relativeSlash? dir).getD ""
  let http := if relDir.isEmpty then "/assets" else "/assets/" ++ relDir
  let size := match e.disk.readBytes path with
    | .ok bytes => Image.dimensions? path bytes
    | .error _ => none
  let scaled (n : Nat) : Json := Json.double (Double.div (Double.ofNat n) (BinaryFloat.convert resolution))
  let (width, height) := match size with
    | some (w, h) => (scaled w, scaled h)
    | none => (Json.null, Json.null)
  return .obj [("__packager_asset", .bool true), ("fileSystemLocation", .str dir.toString),
    ("files", .arr (data.files.map fun f => .str f.toString)), ("hash", .str data.hash),
    ("height", height), ("httpServerLocation", .str http), ("name", .str data.name),
    ("scales", .arr (data.scales.map Json.single)), ("type", .str data.assetType), ("width", width)]

/-- The part of loading that runs in the background. -/
def finishLoad (opts : TransformOptions) : LoadStep → EngineM LoadedModule
  | .ready l => return l
  | .transform m name => do
    let t ← transformModule m opts
    return ⟨name, t.code, t.map, t.sourceCode, t.sourcePath, false, false, none⟩
  | .asset m name resolution => do
    let d ← assetDescriptor m.path resolution opts.platform
    let code := "module.exports = require(\"AssetRegistry\").registerAsset(" ++ Json.compact d ++ ");"
    return { generatedModule name m code with asset := some d }

/-- Load modules in order: a failure at the start of one module stops the later ones from
starting, the background work of those started still runs; otherwise the first failure in
order wins. -/
def loadAll (handle : Option Nat) (opts : TransformOptions) (ids : List Nat) :
    EngineM (List LoadedModule) := do
  let mut started : Array LoadStep := #[]
  for id in ids do
    match ← attempt (startLoad handle id) with
    | .ok s => started := started.push s
    | .error e =>
      for s in started do
        let _ ← attempt (finishLoad opts s)
      fail e
  let results ← started.toList.mapM fun s => attempt (finishLoad opts s)
  results.mapM (lift id)

/-- Pairs with one value per key, the later pair of a key winning. -/
def lastWins (pairs : List (String × String)) : List (String × String) :=
  pairs.foldl (fun acc (k, v) => (acc.filter (·.1 != k)) ++ [(k, v)]) []

/-- The specifiers of a module and the names of the modules they resolved to. -/
def resolvedNames (response : Response) (id : Nat) : EngineM (List (String × String)) := do
  let pairs := (response.resolvedPairs.lookup id).getD []
  let named ← pairs.mapM fun (spec, dep) => do return (spec, ← moduleName dep)
  return lastWins named

/-- The first half of a build: resolve and load. -/
def bundlePrepare (opts : BundleOptions) (handle : Option Nat) :
    EngineM (Response × List LoadedModule) := do
  checkAbort handle
  let (response, topts) ← resolveRequest opts
  checkAbort handle
  let loaded ← loadAll handle topts response.dependencies.toList
  return (response, loaded)

/-- The second half of a build: wrap the loaded modules and finish the bundle. -/
def bundleFinish (opts : BundleOptions) (handle : Option Nat) (response : Response)
    (loaded : List LoadedModule) : EngineM Bundle := do
  checkAbort handle
  let mut bundle := Bundle.new none
  for (mid, l) in response.dependencies.toList.zip loaded do
    let transport ← if l.isPolyfill then pure (l.transport (Wrap.wrapPolyfill l.code) false [])
      else do
        let resolved ← resolvedNames response mid
        pure (l.transport (Wrap.defineModule l.name (Wrap.resolveRequires l.code resolved)) true [])
    if let some a := l.asset then bundle := bundle.addAsset a
    bundle ← lift id (bundle.addModule transport)
  bundle := { bundle with mainModuleId := response.mainModuleId, numPrepended := response.numPrepended }
  lift id (bundle.finalize opts.runModule opts.runBeforeMainModule)

/-- Build a bundle. -/
def bundleBuild (opts : BundleOptions) (handle : Option Nat) : EngineM Bundle := do
  let (response, loaded) ← bundlePrepare opts handle
  bundleFinish opts handle response loaded

/-- Build a bundle whose modules keep their dependency maps and unrewritten code. -/
def prepackBuild (opts : BundleOptions) : EngineM PrepackBundle := do
  let (response, topts) ← resolveRequest opts
  let loaded ← loadAll none topts response.dependencies.toList
  let mut bundle := PrepackBundle.new
  for (mid, l) in response.dependencies.toList.zip loaded do
    if l.isPolyfill then
      bundle ← lift id (bundle.addPolyfill l.code)
    else
      let deps := Text.sortBy (← resolvedNames response mid) fun a b => decide (a.1 ≤ b.1)
      bundle ← lift id (bundle.addModule (l.transport l.code false deps))
  lift id (bundle.finalize response.mainModuleId)

/-- Accept patches for the changed files that belong to the entry's bundle, in request order. -/
def hmrBuild (opts : BundleOptions) (changed : List Path) : EngineM HmrBundle := do
  let (response, topts) ← resolveRequest opts
  let mut hmr := HmrBundle.new
  for raw in changed do
    let path := raw.normalize
    let mut found : Option Nat := none
    for id in response.dependencies do
      if found.isNone && (← moduleOf id).path = path then found := some id
    if let some id := found then
      let step ← startLoad none id
      let l ← finishLoad topts step
      let resolved ← resolvedNames response id
      hmr := hmr.addModule (l.transport (Wrap.acceptModule l.name (Wrap.resolveRequires l.code resolved)) true [])
  return hmr

/-- The files of a bundle's modules in order; an asset stands for all its variants, and modules
no file backs are left out. -/
def orderedDependencyPaths (opts : BundleOptions) : EngineM (List Path) := do
  let (response, topts) ← resolveRequest opts
  let mut paths : List Path := []
  for id in response.dependencies do
    let m ← moduleOf id
    if m.isVirtual then continue
    if m.isAsset then
      let ctx ← read
      let e ← get
      let data ← lift .io (ctx.assets.assetData e.vfs e.disk m.path topts.platform)
      paths := paths ++ data.files
    else paths := paths ++ [m.path]
  return paths

end ModuleBundler
