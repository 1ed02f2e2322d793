import ModuleBundler.Engine.Bundler

/-!
# The packager

One server run: the content memo, the dependency graph and the bundler, with built bundles kept
by their options. A build for options already built returns the kept bundle; a build for options
with a build in flight aborts that build. A failed build is never kept, and a build whose slot
was taken or dropped meanwhile is not kept either.

A change event is applied to the graph, then to the memo, then to the kept bundles: a changed
file drops the bundles containing it; an added or deleted path drops the bundles with a file
module beside it or below it; a change of the name index or of a `package.json` drops them all.
Builds in flight lose their slot on every applied change.

The memo may persist to a file in a cache directory, named by a key of the version, the roots and
the transformer; on start it is read back, keeping the entries whose file still has the
modification time it had.
-/

namespace ModuleBundler

open EngineM

/-- Open the memo of a run: in memory, or backed by a file of the cache directory. -/
def openCache (disk : Disk) (opts : PackagerOptions) : ContentCache :=
  match opts.cacheDir with
  | none => ⟨[], "", none⟩
  | some dir =>
    let key := ContentCache.versionKey opts.cacheVersion opts.projectRoots
      (opts.transformerPath.bind disk.mtime?)
    let file := ContentCache.fileFor dir key
    let entries :=
      if opts.resetCache then []
      else
        match disk.readText file with
        | .error _ => []
        | .ok text =>
          match (Json.parse text).bind ContentCache.persistedOfJson with
          | .ok (version, entries) =>
            if version = key then entries.filter fun (p, e) => disk.mtime? p = e.mtime else []
          | .error _ => []
    ⟨entries, key, some file⟩

/-- Start a run: open the memo, load the graph and build the name index. -/
def startPackager (opts : PackagerOptions) (global : GlobalConfig) (transformer : Transformer)
    (disk : Disk) : Except Error (Context × Engine) := do
  let (ctx, engine) ← loadContext opts global transformer disk (openCache disk opts)
  let (result, engine) := EngineM.run loadGraph ctx engine
  result.map fun _ => (ctx, engine)

/-- Replace the slot of a key. -/
def setSlot (key : String) (slot : BundleSlot) : EngineM Unit :=
  modify fun e => { e with bundles := (e.bundles.filter (·.1 != key)) ++ [(key, slot)] }

/-- Whether the slot of a key is the build of a handle. -/
def holdsBuild (key : String) (h : Nat) : EngineM Bool := do
  match (← get).bundles.lookup key with
  | some (.building h') => return h' = h
  | _ => return false

/-- A fresh serial number for a built bundle. -/
def freshSerial : EngineM Nat := do
  let e ← get
  set { e with nextSerial := e.nextSerial + 1 }
  return e.nextSerial

/-- Build a bundle, or return the kept one; with the serial number of the bundle returned. -/
def buildBundle (opts : BundleOptions) : EngineM (Bundle × Nat) := do
  let key := opts.cacheKey
  match (← get).bundles.lookup key with
  | some (.built b serial) => return (b, serial)
  | previous =>
    let h ← newHandle
    if let some (.building p) := previous then abortHandle p
    setSlot key (.building h)
    let result ← attempt (bundleBuild opts (some h))
    let ours ← holdsBuild key h
    match result with
    | .ok b =>
      let serial ← freshSerial
      if ours then setSlot key (.built b serial)
      return (b, serial)
    | .error err =>
      if ours then modify fun e => { e with bundles := e.bundles.filter (·.1 != key) }
      fail err

/-- Drop every build in flight and every built bundle that `affected` picks. -/
def dropBundles (affected : Bundle → Bool) : EngineM Unit :=
  modify fun e => { e with bundles := e.bundles.filter fun (_, slot) =>
    match slot with
    | .building _ => false
    | .built b _ => !affected b }

/-- Whether a bundle holds a module affected by a change of a path. -/
def touchesBundle (kind : ChangeKind) (path : Path) (b : Bundle) : Bool :=
  match kind with
  | .change => b.modules.any fun m => Path.ofString m.sourcePath = path
  | _ =>
    b.modules.any fun m =>
      let sp := Path.ofString m.sourcePath
      !m.isVirtual && (sp.parent? = path.parent? || sp.startsWith path)

/-- Apply a watcher event to the graph, the memo and the kept bundles. -/
def packagerChange (event : WatchEvent) : EngineM (Option GraphChange) := do
  match ← graphChange event with
  | none => return none
  | some gc =>
    let path := gc.change.path
    modify fun e => { e with cache := (e.cache.invalidate path).2 }
    let dropAll := gc.hasteChanged || path.fileName? = some "package.json"
    dropBundles fun b => dropAll || touchesBundle gc.change.kind path b
    return some gc

/-- Drop every module and bundle and rebuild the name index. -/
def refreshModuleCache : EngineM Unit := do
  graphRefresh
  modify fun e => { e with cache := e.cache.clear }
  dropBundles fun _ => true

/-- The number of kept and in-flight bundles. -/
def bundleCount : EngineM Nat := do return (← get).bundles.length

/-- Write a file by writing a sibling and moving it over the file. -/
def atomicWrite (disk : Disk) (file : Path) (bytes : List UInt8) : Except IoError Disk := do
  let parent := file.parent?.getD (Path.ofString ".")
  let disk ← disk.createDirAll parent
  let temp := parent.push ("." ++ (file.fileName?.getD "file") ++ ".tmp.0")
  let disk ← disk.writeFile temp bytes
  match disk.rename temp file with
  | .ok d => .ok d
  | .error e => .error e

/-- Write the memo to its file; nothing for a memo in memory. -/
def persistCache : EngineM Unit := do
  let e ← get
  match e.cache.file with
  | none => return
  | some file =>
    let bytes := (Json.compact e.cache.toJson).toUTF8.toList
    let disk ← lift .io (atomicWrite e.disk file bytes)
    set { e with disk := disk }

/-- Abort the builds in flight and persist the memo. -/
def shutdownPackager : EngineM Unit := do
  for (_, slot) in (← get).bundles do
    if let .building h := slot then abortHandle h
  persistCache

end ModuleBundler
