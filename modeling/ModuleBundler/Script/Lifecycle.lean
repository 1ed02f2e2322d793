import ModuleBundler.Script.Session

/-!
# The scripted interface: the life of a packager

Steps that reach past one request to the packager: shutting it down and starting a new one over
the same disk, inspecting the file its memo persists to, forwarding batches of watcher events,
making changes on disk that a watcher reports, and interleaving two builds with an event.

A watcher batch is applied once per distinct kind and path, in arrival order. Changes made on
disk are reported the way the operating system reports them: writing a new file is an add and a
change, writing an existing file a change, a rename a delete of the old path and an add of the
new one, a removal a delete, and a new directory nothing.

In a race the first build resolves and loads its modules, then the event is applied and the
second build runs to its end, and only then does the first build assemble its bundle.
-/

namespace ModuleBundler

namespace Script

open EngineM

/-- What a bundle is: its main module, its file paths and its module names. -/
def bundleSummary (b : Bundle) : Json :=
  .obj [("mainModuleId", Json.optStr b.mainModuleId), ("modulePaths", Json.strs b.modulePaths),
    ("names", Json.strs (b.modules.toList.map (·.name)))]

/-- Shut the packager down: abort its builds and persist its memo. -/
def shutdownStep (s : Session) : Json × Session :=
  let (r, s) := s.run shutdownPackager
  match r with
  | .ok _ => (.null, s)
  | .error e => (errorJson e, s)

/-- Shut the packager down and start a new one over the same disk, optionally with another
cache version. -/
def restartStep (st : Json) (s : Session) : Json × Session :=
  let (shutdown, s) := shutdownStep s
  let opts := match optStr st "cacheVersion" with
    | some v => { s.opts with cacheVersion := v }
    | none => s.opts
  match startPackager opts s.global s.transformer s.engine.disk with
  | .error e => (errorJson e, s)
  | .ok (ctx, engine) =>
    let engine := { engine with nextSerial := s.engine.nextSerial }
    let s := { s with ctx := ctx, engine := engine, opts := opts }
    (.obj [("bundleCount", Json.nat engine.bundles.length), ("shutdown", shutdown)], s)

/-- Inspect the memo's file, after writing `content` to it or putting a directory in its place. -/
def cacheFileStep (st : Json) (s : Session) : Json × Session :=
  match s.engine.cache.file with
  | none => (.null, s)
  | some file =>
    if boolOr st "dir" false then
      let s := s.withDisk fun d => let d := d.removeAll file; (d.createDirAll file).toOption.getD d
      (.obj [("dir", .bool true)], s)
    else
      let s := match optStr st "content" with
        | some text => s.withDisk fun d => putFile d file (some text.toUTF8.toList) none
        | none => s
      match s.engine.disk.readBytes file with
      | .error _ => (.obj [("missing", .bool true)], s)
      | .ok bytes =>
        let text := Utf8.decode ⟨bytes.toArray⟩
        match Json.parse text with
        | .ok (.obj fields) =>
          let sameVersion := match fields.lookup "version" with
            | some (.str v) => v == s.engine.cache.version
            | _ => false
          (.obj ((fields.filter (·.1 != "version")) ++ [("versionMatches", .bool sameVersion)]), s)
        | .ok other => (other, s)
        | .error _ => (.obj [("unparsable", .str text)], s)

/-- Apply a batch of watcher events, each distinct kind and path once, in arrival order. -/
def applyBatch (events : List WatchEvent) : EngineM Unit := do
  let distinct := events.foldl (fun acc ev =>
    if acc.any fun e => e.kind = ev.kind && e.absolutePath = ev.absolutePath then acc else acc ++ [ev]) []
  for ev in distinct do
    let _ ← packagerChange ev

/-- The roots a watcher watches: the step's, inside the workspace, or the graph's. -/
def watchRoots (w : Workspace) (st : Json) (s : Session) : List Path :=
  match st.field? "roots" with
  | some (.arr rs) => rs.filterMap fun r => r.str?.map fun t => Path.ofString (w.rawJoin t)
  | _ => s.engine.vfs.roots

/-- Forward events to the packager through a watcher that reports nothing by itself. -/
def watchStep (w : Workspace) (st : Json) (s : Session) : Json × Session :=
  let roots := watchRoots w st s
  let specs := (st.get "events").arr?.getD []
  let events := specs.map fun e =>
    (ChangeKind.ofName? (strOr e "kind" "")).bind fun k => WatchEvent.forPath k (w.resolve (strOr e "path" "")) roots
  let sent := events.filterMap id
  let outside := events.length - sent.length
  let (_, s) := s.run (applyBatch sent)
  (.obj [("bundleCount", Json.nat s.engine.bundles.length), ("hasteError", .bool s.engine.hasteError),
    ("isDummy", .bool true), ("outside", Json.nat outside), ("sent", Json.nat sent.length),
    ("watcher", .str ("FileWatcher \x7b dummy: true, roots: " ++ debugPaths roots ++ " \x7d"))], s)

/-- Carry out one change on disk and the events a watcher reports for it. -/
def diskOperation (w : Workspace) (disk : Disk) (op : Json) : Disk × List (ChangeKind × Path) :=
  match op.field? "write", op.field? "rename", op.field? "remove", op.field? "mkdir" with
  | some (.str p), _, _, _ =>
    let path := w.resolve p
    let existed := disk.isFile path
    let bytes := (stepContent op).toOption.getD []
    let disk := putFile disk path (some bytes) none
    (disk, if existed then [(.change, path)] else [(.add, path), (.change, path)])
  | _, some (.arr [.str a, .str b]), _, _ =>
    let (src, dst) := (w.resolve a, w.resolve b)
    ((disk.rename src dst).toOption.getD disk, [(.delete, src), (.add, dst)])
  | _, _, some (.str p), _ =>
    let path := w.resolve p
    (disk.removeAll path, [(.delete, path)])
  | _, _, _, some (.str p) => ((disk.createDirAll (w.resolve p)).toOption.getD disk, [])
  | _, _, _, _ => (disk, [])

/-- Make changes on disk under a watcher of the roots and apply what it reports. -/
def watchOsStep (w : Workspace) (st : Json) (s : Session) : Json × Session :=
  let roots := watchRoots w st s
  match roots.find? fun r => !s.engine.disk.isDir r with
  | some bad => (errorJson (.watch ("Invalid watch root: " ++ bad.toString)), s)
  | none =>
    let ops := (st.get "ops").arr?.getD []
    let (disk, reported) := ops.foldl (fun (d, acc) op =>
      let (d, evs) := diskOperation w d op
      (d, acc ++ evs)) (s.engine.disk, [])
    let s := s.withDisk fun _ => disk
    let events := reported.filterMap fun (k, p) => WatchEvent.forPath k p roots
    let (_, s) := s.run (applyBatch events)
    (.obj [("bundleCount", Json.nat s.engine.bundles.length),
      ("events", .arr (events.map fun e => .arr [.str e.kind.name, .str e.absolutePath.toString])),
      ("hasteError", .bool s.engine.hasteError), ("timedOut", .bool false)], s)

/-- Build through the bundler directly, with a handle that may be aborted beforehand. -/
def bundlerStep (opts : BundleOptions) (aborted : Bool) (s : Session) : Json × Session :=
  let (r, s) := s.run do
    let h ← newHandle
    if aborted then abortHandle h
    let result ← attempt (bundleBuild opts (some h))
    return (result, (← get).aborted.contains h)
  match r with
  | .error e => (errorJson e, s)
  | .ok (result, isAborted) =>
    let resultJson := match result with
      | .ok b => bundleSummary b
      | .error e => errorJson e
    (.obj [("bundleCount", Json.nat s.engine.bundles.length), ("isAborted", .bool isAborted),
      ("result", resultJson)], s)

/-- Whether a race's event was applied: none without an event, false when it lies outside the
roots or is dropped. -/
def raceEvent (event : Option WatchEvent) (hasEvent : Bool) : EngineM (Option Bool) := do
  if !hasEvent then return none
  match event with
  | none => return some false
  | some ev => return some (← packagerChange ev).isSome

/-- Race two builds and an event: the first build loads, the event is applied, the second build
runs, and the first build assembles; the first build is kept only if its slot is still its own. -/
def raceRun (optsA : BundleOptions) (optsB : Option BundleOptions) (event : Option WatchEvent)
    (hasEvent : Bool) : EngineM (Except Error Bundle × Option (Except Error (Bundle × Nat)) × Option Bool) := do
  let key := optsA.cacheKey
  match (← get).bundles.lookup key with
  | some (.built b _) =>
    let applied ← raceEvent event hasEvent
    let bResult ← optsB.mapM fun o => attempt (buildBundle o)
    return (.ok b, bResult, applied)
  | previous =>
    let h ← newHandle
    if let some (.building p) := previous then abortHandle p
    setSlot key (.building h)
    let prepared ← attempt (bundlePrepare optsA (some h))
    if let .error _ := prepared then
      if ← holdsBuild key h then modify fun e => { e with bundles := e.bundles.filter (·.1 != key) }
    let applied ← raceEvent event hasEvent
    let bResult ← optsB.mapM fun o => attempt (buildBundle o)
    match prepared with
    | .error e => return (.error e, bResult, applied)
    | .ok (response, loaded) =>
      let aResult ← attempt (bundleFinish optsA (some h) response loaded)
      let ours ← holdsBuild key h
      match aResult with
      | .ok b =>
        let serial ← freshSerial
        if ours then setSlot key (.built b serial)
      | .error _ =>
        if ours then modify fun e => { e with bundles := e.bundles.filter (·.1 != key) }
      return (aResult, bResult, applied)

/-- The answer of a `race` step. -/
def raceStep (w : Workspace) (st : Json) (s : Session) : Json × Session :=
  let optsOf (j : Json) : Except String BundleOptions := bundleOptionsOf (j.obj?.getD []) []
  match optsOf (st.get "a") with
  | .error m => (badInput m, s)
  | .ok optsA =>
    let optsB := match st.field? "b" with
      | some (.obj fs) => (optsOf (.obj fs)).toOption
      | _ => none
    let eventSpec := st.field? "event"
    let hasEvent := match eventSpec with
      | some (.obj _) => true
      | _ => false
    let event := eventSpec.bind fun e =>
      let roots := match optStr e "root" with
        | some r => [w.resolve r]
        | none => s.engine.vfs.roots
      (ChangeKind.ofName? (strOr e "kind" "")).bind fun k => WatchEvent.forPath k (w.resolve (strOr e "path" "")) roots
    let (r, s) := s.run (raceRun optsA optsB event hasEvent)
    match r with
    | .error e => (errorJson e, s)
    | .ok (aResult, bResult, applied) =>
      let summary (x : Except Error Bundle) : Json := match x with
        | .ok b => bundleSummary b
        | .error e => errorJson e
      (.obj [("a", summary aResult), ("b", Json.opt (fun x => summary (x.map (·.1))) bResult),
        ("bundleCount", Json.nat s.engine.bundles.length), ("eventApplied", Json.opt Json.bool applied)], s)

end Script

end ModuleBundler
