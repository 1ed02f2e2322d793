import ModuleBundler.Script.Lifecycle

/-!
# The scripted interface: projects

A project request lays out files in the workspace, starts a packager over them and runs a list
of steps against it, answering each step on its own: a failing step answers its error and the
next steps still run. A failure to start answers the whole request.

Paths in steps are taken inside the workspace; entry files are handed to the engine as written,
so a relative entry is looked up in the roots.
-/

namespace ModuleBundler

namespace Script

open EngineM

/-- A module: its path, kind and name, with the fields of its kind. -/
def describeModule (id : Nat) : EngineM (List (String × Json)) := do
  let m ← moduleOf id
  let name ← attempt (moduleName id)
  let kindFields : List (String × Json) := match m.kind with
    | .source => [("kind", .str (if m.isJson then "json" else "source"))]
    | .asset res assetName assetType =>
      [("kind", .str "asset"), ("resolution", Json.single res), ("assetName", .str assetName),
        ("assetType", .str assetType)]
    | .polyfill pid deps _ => [("kind", .str "polyfill"), ("id", .str pid), ("numDependencies", Json.nat deps.length)]
    | .null n => [("kind", .str "null"), ("nullName", .str n)]
  let nameJson := match name with
    | .ok n => Json.str n
    | .error e => errorJson e
  return [("path", .str m.display)] ++ kindFields ++ [("name", nameJson)]

/-- A dependency response: its modules with their resolved pairs, and the rest of it. -/
def responseJson (r : Response) : EngineM Json := do
  let modules ← r.dependencies.toList.mapM fun id => do
    let desc ← describeModule id
    let pairs := (r.resolvedPairs.lookup id).getD []
    let deps ← pairs.mapM fun (spec, dep) => do return Json.arr [.str spec, .str (← moduleOf dep).display]
    return Json.obj (desc ++ [("deps", .arr deps)])
  return .obj [("modules", .arr modules), ("mainModuleId", Json.optStr r.mainModuleId),
    ("asyncDependencies", .arr (r.asyncDependencies.map Json.strs)),
    ("mocks", .obj (r.mocks.map fun (k, p) => (k, .str p.toString))),
    ("numPrepended", Json.nat r.numPrepended), ("warnings", Json.strs r.warnings),
    ("finalized", .bool r.finalized)]

/-- A built bundle as answered. -/
def bundleJson (b : Bundle) (inline fromCache : Bool) (count : Nat) : Json :=
  .obj [("source", .str (b.source inline)),
    ("modules", .arr (b.modules.toList.map fun m => .obj [("name", .str m.name),
      ("sourcePath", .str m.sourcePath), ("virtual", .bool m.isVirtual), ("wrapped", .bool m.wrapped),
      ("hasMap", .bool m.map.isSome)])),
    ("assets", .arr b.assets.toList), ("mainModuleId", Json.optStr b.mainModuleId),
    ("numPrepended", Json.nat b.numPrepended), ("modulePaths", Json.strs b.modulePaths),
    ("sourceMap", b.sourceMap), ("fromCache", .bool fromCache), ("bundleCount", Json.nat count)]

/-- The debug dump in canonical form: each block's forward lines sorted and first, then its
backward lines; blocks sorted by their head and then their text. -/
def canonicalDump (text : String) : String :=
  let lines := (text.splitOn "\n").filter (· != "")
  let blocks := lines.foldl (fun (acc : List (List String)) l =>
    if l.startsWith "  " then
      match acc with
      | b :: rest => (b ++ [l]) :: rest
      | [] => [[l]]
    else [l] :: acc) []
  let canon := blocks.reverse.map fun b =>
    match b with
    | head :: rest =>
      let fwd := (rest.filter (·.startsWith "  -> ")).mergeSort fun x y => decide (x ≤ y)
      let back := rest.filter fun l => !l.startsWith "  -> "
      head :: (fwd ++ back)
    | [] => []
  let keyed := canon.map fun b => (b.headD "", "\n".intercalate b)
  let sorted := keyed.mergeSort fun x y => x.1 < y.1 || (x.1 = y.1 && decide (x.2 ≤ y.2))
  String.join (sorted.map fun (_, t) => t ++ "\n")

/-- The answer of a `vfs` step. -/
def vfsAnswer (w : Workspace) (st : Json) : EngineM Json := do
  let e ← get
  let v := e.vfs
  let disk := e.disk
  let path := w.resolve (strOr st "path" "")
  let vfsError (err : VfsError) : Json := .obj [("error", .str ("Vfs." ++ err.variant)), ("message", .str err.message)]
  let pattern (k : String) (f : Regex → Json) : Json :=
    match compileOrAnswer (strOr st k "") with
    | .ok re => f re
    | .error j => j
  match strOr st "fn" "" with
  | "file_exists" => return .bool (v.fileExists disk path)
  | "dir_exists" => return .bool (v.dirExists disk path)
  | "closest" => return Json.opt (fun p => .str p.toString) (v.closest disk path (strOr st "name" "package.json"))
  | "read" =>
    let (r, v') := v.readFile disk path
    set { e with vfs := v' }
    return match r with
      | .ok s => .str s
      | .error err => vfsError err
  | "size" =>
    let (r, v') := v.stat disk path
    set { e with vfs := v' }
    return match r with
      | .ok s => Json.nat s.size
      | .error err => vfsError err
  | "matches" => return pattern "pattern" fun re =>
      match v.childrenMatching path re with
      | .ok ps => Json.strs (ps.map Path.toString)
      | .error err => vfsError err
  | "match_files" => return pattern "pattern" fun re => Json.strs ((v.matchFiles re).map Path.toString)
  | "all_files" => return Json.strs (v.allFiles.map Path.toString)
  | "files_under" => return Json.strs ((v.filesUnder path).map Path.toString)
  | "find_by_exts" => return Json.strs ((v.findByExts (strsOr st "exts" [])).map Path.toString)
  | "roots" => return Json.strs (v.roots.map Path.toString)
  | "is_ignored" =>
    let raw := w.rawJoin (strOr st "path" "")
    return .bool (v.ignore.isIgnoredText raw)
  | other => return badInput ("unknown vfs fn `" ++ other ++ "`")

/-- The answer of a `module` step. -/
def moduleAnswer (path : Path) : EngineM Json := do
  let id ← getModuleForPath path
  let desc ← describeModule id
  let m ← moduleOf id
  let data ← attempt (moduleData id)
  let haste ← attempt (isHaste id)
  let pkg ← packageFor m
  let dependers ← dependersOf id
  let dependerPaths ← dependers.mapM fun d => do return (← moduleOf d).display
  let dataJson := match data with
    | .ok d => Json.obj [("hasteId", Json.optStr d.hasteId), ("dependencies", Json.strs d.dependencies),
        ("asyncDependencies", .arr (d.asyncDependencies.map Json.strs))]
    | .error e => errorJson e
  let hasteJson := match haste with
    | .ok b => Json.bool b
    | .error e => errorJson e
  return .obj (desc ++ [("data", dataJson), ("isHaste", hasteJson),
    ("package", Json.opt (fun p => .str p.path.toString) pkg),
    ("dependers", Json.strs (dependerPaths.mergeSort fun a b => decide (a ≤ b))),
    ("isVirtual", .bool m.isVirtual)])

/-- A redirect as answered. -/
def redirectJson : Redirect → Json
  | .unchanged => .str "unchanged"
  | .suppressed => .str "suppressed"
  | .to t => .obj [("to", .str t)]

/-- The answer of a `package` step. -/
def packageAnswer (path : Path) (names : List String) : EngineM Json := do
  let p ← getPackage path
  return .obj [("path", .str p.path.toString), ("root", .str p.root.toString), ("name", Json.optStr p.name?),
    ("main", .str p.main.toString),
    ("redirects", .arr (names.map fun n => .arr [.str n, redirectJson (p.redirectRequire n)]))]

/-- An asset's data as answered. -/
def assetDataJson (d : AssetData) : Json :=
  .obj [("scales", .arr (d.scales.map Json.single)), ("files", Json.strs (d.files.map Path.toString)),
    ("hash", .str d.hash), ("name", .str d.name), ("type", .str d.assetType)]

/-- Bundle options of a step: its fields over the base, without `do`, `changed` and `polyfills`. -/
def stepBundleOptions (st : Json) : Except String BundleOptions :=
  bundleOptionsOf (st.obj?.getD []) ["do", "changed", "polyfills"]

/-- Answer with the engine's result or its error. -/
def engineAnswer (s : Session) (x : EngineM Json) : Json × Session :=
  let (r, s) := s.run x
  (answerOr r, s)

/-- The answer of an event for a path, attributed to the given roots or the graph's. -/
def eventAnswer (w : Workspace) (s : Session) (kind : ChangeKind) (path : Path) (root : Option String) :
    Json × Session :=
  let roots := match root with
    | some r => [w.resolve r]
    | none => s.engine.vfs.roots
  match WatchEvent.forPath kind path roots with
  | none => (.obj [("event", .str "outside"), ("bundleCount", Json.nat s.engine.bundles.length)], s)
  | some ev =>
    let (r, s) := s.run (packagerChange ev)
    match r with
    | .error e => (errorJson e, s)
    | .ok change =>
      let changeJson := Json.opt (fun (gc : GraphChange) => .obj [("path", .str gc.change.path.toString),
        ("kind", .str gc.change.kind.name), ("hasteChanged", .bool gc.hasteChanged)]) change
      (.obj [("change", changeJson), ("hasteError", .bool s.engine.hasteError),
        ("bundleCount", Json.nat s.engine.bundles.length)], s)

/-- Run a `bundle` step. -/
def bundleStep (s : Session) (opts : BundleOptions) : Json × Session :=
  let key := opts.cacheKey
  let (r, s) := s.run (buildBundle opts)
  let count := s.engine.bundles.length
  match r with
  | .error e => ((errorJson e).setField "bundleCount" (Json.nat count), s)
  | .ok (b, serial) =>
    let fromCache := s.served.lookup key = some serial
    let s := { s with served := (key, serial) :: s.served.filter (·.1 != key) }
    (bundleJson b opts.inlineSourceMap fromCache count, s)

/-- Run one step. -/
def projectStep (w : Workspace) (s : Session) (st : Json) : Json × Session :=
  let withOptions (f : BundleOptions → Json × Session) : Json × Session :=
    match stepBundleOptions st with
    | .ok o => f o
    | .error m => (badInput m, s)
  let pathOf (k : String) : Path := w.resolve (strOr st k "")
  match strOr st "do" "" with
  | "deps" =>
    let entry := strOr st "entry" ""
    if boolOr st "polyfills" false then
      withOptions fun o => engineAnswer s do
        let o := { o with entryFile := entry }
        let path ← entryPath o.entryFile
        let platform ← resolvePlatform o.platform path
        responseJson (← bundlerDependencies path platform o.dev o.unbundle)
    else engineAnswer s do responseJson (← graphDependencies entry (optStr st "platform"))
  | "bundle" => withOptions fun o => bundleStep s o
  | "prepack" => withOptions fun o => engineAnswer s do
      let p ← prepackBuild o
      return .obj [("json", p.toJson), ("names", Json.strs (p.modules.toList.map (·.name)))]
  | "hmr" => withOptions fun o => engineAnswer s do
      let changed := (strsOr st "changed" []).map w.resolve
      let h ← hmrBuild o changed
      return .obj [("names", Json.strs h.names), ("source", .str h.source),
        ("modules", .arr (h.modules.toList.map fun m => .obj [("name", .str m.name),
          ("sourcePath", .str m.sourcePath), ("virtual", .bool m.isVirtual)]))]
  | "paths" => withOptions fun o => engineAnswer s do
      return Json.strs ((← orderedDependencyPaths o).map Path.toString)
  | "shallow" => engineAnswer s do return Json.strs (← shallowDependencies (strOr st "entry" ""))
  | "module" => engineAnswer s (moduleAnswer (pathOf "path"))
  | "package" => engineAnswer s (packageAnswer (pathOf "path") (strsOr st "redirect" []))
  | "vfs" => engineAnswer s (vfsAnswer w st)
  | "entry" => engineAnswer s do return .str (← entryPath (strOr st "entry" "")).toString
  | "platform" => engineAnswer s do
      return Json.optStr (← resolvePlatform (optStr st "platform") (pathOf "entry"))
  | "mocks" => engineAnswer s do
      return .obj ((← mocks).map fun (k, p) => (k, .str p.toString))
  | "asset_data" =>
    let e := s.engine
    match s.ctx.assets.assetData e.vfs e.disk (pathOf "path") (optStr st "platform") with
    | .ok d => (assetDataJson d, s)
    | .error err => (.obj [("error", .str "Io"), ("message", .str err.message)], s)
  | "asset_resolve" =>
    let e := s.engine
    (Json.opt (fun p => .str p.toString)
      (s.ctx.assets.resolve e.vfs e.disk (pathOf "from") (strOr st "name" "") (optStr st "platform")), s)
  | "write" =>
    match stepContent st with
    | .ok bytes => (.null, s.withDisk fun d => putFile d (pathOf "path") (some bytes) none)
    | .error m => (badInput m, s)
  | "mkdir" => (.null, s.withDisk fun d => (d.createDirAll (pathOf "path")).toOption.getD d)
  | "remove" => (.null, s.withDisk fun d => d.removeAll (pathOf "path"))
  | "event" =>
    let kindName := strOr st "kind" ""
    match ChangeKind.ofName? kindName with
    | some kind => eventAnswer w s kind (pathOf "path") (optStr st "root")
    | none => (badInput ("unknown event kind `" ++ kindName ++ "`"), s)
  | "add" | "change" =>
    let kind := if strOr st "do" "" = "add" then ChangeKind.add else ChangeKind.change
    match stepContent st with
    | .ok bytes =>
      let s := s.withDisk fun d => putFile d (pathOf "path") (some bytes) none
      eventAnswer w s kind (pathOf "path") (optStr st "root")
    | .error m => (badInput m, s)
  | "delete" =>
    let s := s.withDisk fun d => d.removeAll (pathOf "path")
    eventAnswer w s .delete (pathOf "path") (optStr st "root")
  | "refresh" => engineAnswer s do
      refreshModuleCache
      return .obj [("bundleCount", Json.nat (← bundleCount))]
  | "dump" => engineAnswer s do
      let text ← debugDump
      return .obj [("dump", .str (canonicalDump text)), ("resolutionCount", Json.nat (← resolutionCount))]
  | "count" => (Json.nat s.engine.bundles.length, s)
  | "shutdown" => shutdownStep s
  | "restart" => restartStep st s
  | "cache_file" => cacheFileStep st s
  | "touch" =>
    let offset := match st.field? "at" with
      | some (.num (.nat n)) => n
      | _ => 0
    (.null, s.withDisk fun d => d.touch (pathOf "path") (Disk.mtimeAt offset))
  | "watch" => watchStep w st s
  | "watch_os" => watchOsStep w st s
  | "race" => raceStep w st s
  | "bundler" => withOptions fun o => bundlerStep o (boolOr st "aborted" false) s
  | other => (badInput ("unknown step `" ++ other ++ "`"), s)

/-- Run the steps in order, each answered on its own. -/
def runSteps (w : Workspace) (s : Session) : List Json → List Json
  | [] => []
  | st :: rest =>
    let (a, s) := projectStep w s st
    a :: runSteps w s rest

/-- The packager options of a request: its `options`, the roots, and its paths inside the
workspace. -/
def projectOptions (w : Workspace) (req : Json) (roots : List String) : Except String PackagerOptions := do
  let o ← PackagerOptions.ofJson (match req.field? "options" with
    | some (.obj fs) => .obj fs
    | some .null | none => .obj []
    | some other => other)
  return { o with
    projectRoots := roots.map w.rawJoin
    polyfills := o.polyfills.map w.rawJoin
    internalRoots := o.internalRoots.map fun p => Path.ofString (w.rawJoin p.toString)
    cacheDir := o.cacheDir.map fun p => Path.ofString (w.rawJoin p.toString)
    transformerPath := o.transformerPath.map fun p => Path.ofString (w.rawJoin p.toString) }

/-- The answer to a `project` request. -/
def projectAnswer (w : Workspace) (req : Json) : Json :=
  let files := (req.get "files").obj?.getD []
  let setup : Except String Disk := files.foldlM (fun d (k, v) => do
      let content ← fileContent v
      return putFile d (w.resolve k) content (some Disk.setupMtime)) w.freshDisk
  match setup with
  | .error m => badInput m
  | .ok disk =>
    let roots := match req.field? "roots" with
      | some (.arr rs) => rs.filterMap Json.str?
      | _ => [""]
    match projectOptions w req roots with
    | .error m => badInput ("bad options: " ++ m)
    | .ok opts =>
      let global : Except Error GlobalConfig := match req.field? "config" with
        | some (.str "discover") => GlobalConfig.discover disk ((roots.map w.rawJoin).headD w.root.toString)
        | some (.str p) => GlobalConfig.load disk (w.rawJoin p)
        | _ => .ok GlobalConfig.default
      match global with
      | .error e => errorJson e
      | .ok global =>
        match Transformer.ofName? (strOr req "transformer" "identity") with
        | none => badInput "unknown transformer"
        | some transformer =>
          match startPackager opts global transformer disk with
          | .error e => errorJson e
          | .ok (ctx, engine) =>
            let s : Session := ⟨ctx, engine, opts, global, transformer, []⟩
            .obj [("steps", .arr (runSteps w s ((req.get "steps").arr?.getD [])))]

end Script

end ModuleBundler
