import ModuleBundler.Resolve.Resolver
import ModuleBundler.Vfs.Crawl

/-!
# The dependency graph

Loading a server run crawls the roots, builds the filesystem mirror and the global name index;
only a finished load answers queries. A dependency query walks the modules depth first from the
entry, each module once, its requires in the order they are written; the requires of one module
are all resolved before any failure among them is looked at, and a name that does not resolve is
replaced by a mock of that name, or is fatal on a platform where unresolved requires are fatal,
or else becomes a warning. The entry's lazily loaded groups follow.

A change event reaches the mirror first, then the registry (a deleted directory as one delete per
file it held), then the name index; when the index changes, or a `package.json` changes, every
memoised resolution is dropped. A failed update of the index leaves it in need of a full rebuild,
which the next change performs.
-/

namespace ModuleBundler

open EngineM

/-- The change a watcher reports: its kind, the root it came through and the path below it. -/
structure WatchEvent where
  kind : ChangeKind
  relative : Path
  root : Path

/-- The event for an absolute path, attributed to the deepest root containing it. -/
def WatchEvent.forPath (kind : ChangeKind) (path : Path) (roots : List Path) : Option WatchEvent :=
  let containing := roots.filter path.startsWith
  let deepest := containing.foldl (fun best r =>
    match best with
    | some b => if r.components.length ≥ b.components.length then some r else some b
    | none => some r) none
  deepest.bind fun root => (path.stripPrefix? root).map fun rel => ⟨kind, rel, root⟩

/-- The path an event is about. -/
def WatchEvent.absolutePath (e : WatchEvent) : Path := e.root.join e.relative

/-- A change applied to the graph, and whether the name index changed. -/
structure GraphChange where
  change : FileChange
  hasteChanged : Bool

/-- The file extensions a load crawls: the project's, then asset extensions not among them. -/
def crawlExts (projectExts assetExts : List String) : List String :=
  assetExts.foldl (fun acc e => if acc.contains e then acc else acc ++ [e]) projectExts

/-- The fixed configuration of a run, and its state before the name index is built. -/
def loadContext (opts : PackagerOptions) (global : GlobalConfig) (transformer : Transformer)
    (disk : Disk) (cache : ContentCache) : Except Error (Context × Engine) := do
  let ignore ← match IgnoreRules.fromPatterns opts.blacklist with
    | .ok r => pure r
    | .error (p, m) => throw (Error.pattern p m)
  let ignore := match global.ignoredPatterns with
    | some re => ignore.withScoped re opts.internalRoots
    | none => ignore
  let mocksPattern ← match opts.mocksPattern with
    | some p =>
      match Regex.compile p with
      | .ok re => pure (some re)
      | .error e => throw (Error.pattern p e.message)
    | none => pure none
  let assetExts := global.assetExts.getD opts.assetExts
  let exts := crawlExts opts.projectExts assetExts
  let roots := opts.projectRoots.map fun r => (Path.ofString r).normalize
  let files ← (Vfs.crawl disk roots exts ignore).mapError Error.vfs
  let vfs ← (Vfs.build disk roots files ignore exts).mapError Error.vfs
  let ctx : Context := ⟨opts, global, assetExts, mocksPattern, ⟨opts.assetExts, opts.platforms⟩, transformer⟩
  return (ctx, ⟨disk, cache, vfs, Registry.empty, HasteMap.empty, false, [], 0, [], 0⟩)

/-- Build the name index of a freshly loaded run. -/
def loadGraph : EngineM Unit := do
  let h ← buildHasteMap
  modify fun e => { e with haste := h }

/-- The platform of a request: an explicit one must be configured; without one the entry's file
name decides. -/
def resolvePlatform (platform : Option String) (entry : Path) : EngineM (Option String) := do
  let platforms := (← read).opts.platforms
  match platform with
  | some p => if platforms.contains p then return some p else fail (.unrecognizedPlatform p)
  | none => return platformExtension entry platforms

/-- The absolute path of an entry file. A relative entry is looked up in each root in order; an
absolute entry outside the roots makes its directory a detached root. -/
def entryPath (entry : String) : EngineM Path := do
  let p := Path.ofString entry
  let roots := (← get).vfs.roots
  if p.isAbsolute then
    let path := p.normalize
    if !roots.any fun r => path.startsWith r then
      if let some dir := path.parent? then
        if (← get).disk.isDir dir then
          modify fun e => { e with vfs := e.vfs.addDetachedRoot dir }
    if ← fileExists path then return path
  else
    let found ← (roots.map fun r => (r.join p).normalize).findM? fileExists
    if let some path := found then return path
  fail (.notFound entry roots)

/-- The module of a path, an asset module when its extension is an asset extension. -/
def getModuleForPath (path : Path) : EngineM Nat := do
  let exts := (← read).assetExts
  let isAsset := match path.extension? with
    | some e => exts.contains e
    | none => false
  if isAsset then getAssetModule path else getModule path

/-- The names the entry requires, unresolved. -/
def shallowDependencies (entry : String) : EngineM (List String) := do
  let path ← entryPath entry
  let id ← getModuleForPath path
  return (← moduleData id).dependencies

/-- The mock files, by file name without extension; of two with one name the later path wins. -/
def mocks : EngineM (List (String × Path)) := do
  match (← read).mocksPattern with
  | none => return []
  | some re =>
    let files := (← get).vfs.matchFiles re
    let byStem := files.foldl (fun acc p =>
      match p.fileStem? with
      | some stem => (acc.filter (·.1 != stem)) ++ [(stem, p)]
      | none => acc) []
    return Text.sortBy byStem fun a b => decide (a.1 ≤ b.1)

/-- The traversal in progress: the modules to visit, those visited, and the response so far. -/
structure Walk where
  stack : List Nat
  visited : List Nat
  response : Response

/-- The empty response. -/
def Response.empty : Response := ⟨#[], [], none, [], 0, [], [], false⟩

/-- Visit one module: resolve its requires, substitute mocks and record the pairs. -/
def visitModule (req : Request) (fatal : Bool) (mockFiles : List (String × Path)) (id : Nat)
    (w : Walk) : EngineM Walk := do
  let w := { w with visited := id :: w.visited,
                    response := { w.response with dependencies := w.response.dependencies.push id } }
  let names := (← moduleData id).dependencies
  let resolved ← names.mapM fun name => do return (name, ← attempt (req.resolveDependency id name))
  let m ← moduleOf id
  let mut pairs : Array (String × Nat) := #[]
  let mut warnings := w.response.warnings
  if !mockFiles.isEmpty then
    let own ← moduleName id
    if let some mock := mockFiles.lookup own then
      if mock != m.path then pairs := pairs.push (own, ← getModule mock)
  for (name, result) in resolved do
    match result with
    | .ok dep => pairs := pairs.push (name, dep)
    | .error e =>
      if e.isUnableToResolve then
        if let some mock := mockFiles.lookup name then
          pairs := pairs.push (name, ← getModule mock)
        else if fatal then fail e
        else warnings := warnings ++ [e.message]
      else fail e
  let visited := w.visited
  let pushed := pairs.toList.reverse.filterMap fun (_, dep) => if visited.contains dep then none else some dep
  return { w with stack := pushed.reverse ++ w.stack,
                  response := { w.response with warnings := warnings,
                                                resolvedPairs := w.response.resolvedPairs ++ [(id, pairs.toList)] } }

/-- Walk until the stack is empty. `fuel` bounds the steps: a walk that would need more is
refused, never cut short, so a walk that answers has emptied its stack. -/
def walk (req : Request) (fatal : Bool) (mockFiles : List (String × Path)) : Nat → Walk → EngineM Walk
  | 0, _ => fail (.internal "dependency walk did not finish")
  | fuel + 1, w =>
    match w.stack with
    | [] => return w
    | id :: rest =>
      let w := { w with stack := rest }
      if w.visited.contains id then walk req fatal mockFiles fuel w
      else do
        let w ← visitModule req fatal mockFiles id w
        walk req fatal mockFiles fuel w

/-- The paths a walk can make a module for: the files of the mirror and of the disk, and the
paths of the name index, each normalized. -/
def Engine.modulePaths (e : Engine) : List Path :=
  (e.vfs.nodes.map Prod.fst ++ e.disk.entries.map Prod.fst ++
    e.haste.names.flatMap fun nv => nv.2.map fun ve => ve.2.path).map Path.normalize

/-- The names a module can be read to declare, in a state, all counted together: those the
records keep and the polyfills list, those the content memo holds, and those each file of the
mirror or of the disk reads as. -/
def Engine.nameBound (e : Engine) : Nat :=
  let total (ns : List Nat) : Nat := ns.foldr (· + ·) 0
  total (e.registry.store.toList.map fun rec =>
      (rec.data.map (·.dependencies.length)).getD 0 +
        rec.module.kind.listedDependencies.length) +
    total (e.cache.entries.map fun pe => total (pe.2.fields.map fun fj =>
      ((ModuleData.ofJson fj.2).toOption.map (·.dependencies.length)).getD 0)) +
    total ((e.vfs.nodes.map Prod.fst ++ e.disk.entries.map Prod.fst).map fun q =>
      ((e.vfs.readFile e.disk q).1.toOption.map fun s => (extractRequires s).sync.length).getD 0)

/-- How many steps a walk may take: more than it can need, so that a walk is never cut short. A
walk visits each module once; the modules it can visit are those the registry holds and those it
makes, one per path of `modulePaths` and one per suppressed dependency, and a visit pushes at most
one module per name the module declares (`nameBound`) and one for its mock. -/
def walkFuel : EngineM Nat := do
  let e ← get
  return (2 * e.nameBound + 2) * (e.registry.store.size + e.modulePaths.length) + 3

/-- The ordered dependencies of an entry for a platform, then the entry's lazy groups. The
response is left open for polyfills to be put in front. -/
def graphDependencies (entry : String) (platform : Option String) : EngineM Response := do
  let path ← entryPath entry
  let platform ← resolvePlatform platform path
  let opts := (← read).opts
  let req : Request := ⟨platform, opts.preferNativePlatform⟩
  let fatal := opts.isFatalUnresolved platform
  let mockFiles ← mocks
  let entryId ← getModuleForPath path
  let main ← moduleName entryId
  let w ← walk req fatal mockFiles (← walkFuel) ⟨[entryId], [], { Response.empty with mainModuleId := some main }⟩
  let mut response := w.response
  for group in (← moduleData entryId).asyncDependencies do
    let mut paths : List String := []
    for name in group do
      match ← attempt (req.resolveDependency entryId name) with
      | .ok dep => paths := paths ++ [(← moduleOf dep).display]
      | .error e =>
        if e.isUnableToResolve && !fatal then response := { response with warnings := response.warnings ++ [e.message] }
        else fail e
    if !paths.isEmpty then
      response := { response with asyncDependencies := response.asyncDependencies ++ [paths] }
  return { response with mocks := mockFiles }

/-- Apply a watcher event to the graph; nothing when the mirror drops it. -/
def graphChange (event : WatchEvent) : EngineM (Option GraphChange) := do
  let e ← get
  let removed := if event.kind = .delete then e.vfs.filesUnder event.absolutePath else []
  let (change?, vfs) := e.vfs.processChange e.disk event.kind event.root event.relative
  modify fun e => { e with vfs := vfs }
  match change? with
  | none => return none
  | some change =>
    let fileChanges := if removed.isEmpty then [change] else removed.map fun p => ⟨.delete, p⟩
    for fc in fileChanges do registryChange fc
    let changed ← if (← get).hasteError then do
        match ← attempt buildHasteMap with
        | .ok h => modify fun e => { e with haste := h, hasteError := false }
        | .error _ => pure ()
        pure true
      else do
        let mut changed := false
        for fc in fileChanges do
          match ← attempt (hasteChange fc) with
          | .ok c => changed := changed || c
          | .error _ =>
            modify fun e => { e with hasteError := true }
            changed := true
        pure changed
    let touchesPackage := fileChanges.any fun fc => fc.path.fileName? = some "package.json"
    if changed || touchesPackage then clearResolutions
    return some ⟨change, changed⟩

/-- Drop every module and rebuild the name index; a failed rebuild keeps the old index. -/
def graphRefresh : EngineM Unit := do
  refreshRegistry
  let h ← buildHasteMap
  modify fun e => { e with haste := h, hasteError := false }

end ModuleBundler
