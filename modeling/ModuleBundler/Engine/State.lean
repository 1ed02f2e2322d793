import ModuleBundler.Vfs.Crawl
import ModuleBundler.Registry.Module
import ModuleBundler.Registry.Package
import ModuleBundler.Cache.Memo
import ModuleBundler.Config.Global
import ModuleBundler.Bundle.Transform
import ModuleBundler.Bundle.Assets
import ModuleBundler.Bundle.Artifact

/-!
# The engine's state

The engine of one server run is a configuration that stays fixed (`Context`) and a state that
its operations update (`Engine`): the disk, the content memo, the file mirror, the module
registry, the global name index and the built bundles. Operations run in `EngineM`, where a
failure keeps every update made before it, as memoised work stays done when a later step fails.

The registry keeps every module it ever created, by number. A module stays usable after a change
replaced it (it is then no longer live), so a traversal holding it can still ask for its name.
-/

namespace ModuleBundler

/-- A module of the registry, what it declares once read, and whether it is still live. -/
structure ModuleRecord where
  module : Module
  data : Option ModuleData
  live : Bool
  deriving Inhabited

/-- The module registry. -/
structure Registry where
  store : Array ModuleRecord
  byPath : List (Path × Nat)
  nulls : List (String × Nat)
  resolved : List (ResolutionKey × Nat)
  dependers : List (Nat × List ResolutionKey)
  packages : List (Path × Package)
  deriving Inhabited

/-- An empty registry. -/
def Registry.empty : Registry := ⟨#[], [], [], [], [], []⟩

/-- What a global name points at. -/
inductive HasteEntry where
  | module (path : Path)
  | package (path : Path)
  deriving DecidableEq, Inhabited

/-- The path of an entry. -/
def HasteEntry.path : HasteEntry → Path
  | .module p => p
  | .package p => p

/-- The global name index: for each name, its entry per platform (`none` for every platform). -/
structure HasteMap where
  names : List (String × List (Option String × HasteEntry))
  deriving Inhabited

/-- The result of one dependency traversal. -/
structure Response where
  /-- The modules in bundle order. -/
  dependencies : Array Nat
  asyncDependencies : List (List String)
  mainModuleId : Option String
  mocks : List (String × Path)
  numPrepended : Nat
  warnings : List String
  /-- For each module, its specifiers and the modules they resolved to, in declaration order. -/
  resolvedPairs : List (Nat × List (String × Nat))
  finalized : Bool
  deriving Inhabited

/-- A bundle slot: a build in flight, or a built bundle with its serial number. -/
inductive BundleSlot where
  | building (handle : Nat)
  | built (bundle : Bundle) (serial : Nat)
  deriving Inhabited

/-- The fixed configuration of a server run. -/
structure Context where
  opts : PackagerOptions
  global : GlobalConfig
  /-- The asset extensions in effect: the configuration's, else the options'. -/
  assetExts : List String
  mocksPattern : Option Regex
  assets : AssetIndex
  transformer : Transformer

/-- The state of a server run. -/
structure Engine where
  disk : Disk
  cache : ContentCache
  vfs : Vfs
  registry : Registry
  haste : HasteMap
  hasteError : Bool
  bundles : List (String × BundleSlot)
  nextHandle : Nat
  aborted : List Nat
  nextSerial : Nat

/-- Operations of a server run. -/
abbrev EngineM := ReaderT Context (ExceptT Error (StateM Engine))

namespace EngineM

/-- Run an operation. -/
def run {α : Type} (x : EngineM α) (ctx : Context) (e : Engine) : Except Error α × Engine :=
  (x ctx).run e

/-- Fail with an error. -/
def fail {α : Type} (e : Error) : EngineM α := throw e

/-- Lift a result, failing on its error. -/
def lift {α ε : Type} (f : ε → Error) (r : Except ε α) : EngineM α :=
  match r with
  | .ok a => pure a
  | .error e => throw (f e)

/-- Run an operation and give back its result, failures included. -/
def attempt {α : Type} (x : EngineM α) : EngineM (Except Error α) :=
  tryCatch (Except.ok <$> x) fun e => pure (.error e)

end EngineM

open EngineM

/-- The disk. -/
def getDisk : EngineM Disk := do return (← get).disk

/-- Read a file through the mirror. -/
def readFile (p : Path) : EngineM String := do
  let e ← get
  let (r, v) := e.vfs.readFile e.disk p
  set { e with vfs := v }
  lift .vfs r

/-- Whether the mirror knows a file. -/
def fileExists (p : Path) : EngineM Bool := do
  let e ← get
  return e.vfs.fileExists e.disk p

/-- Whether the mirror knows a directory. -/
def dirExists (p : Path) : EngineM Bool := do
  let e ← get
  return e.vfs.dirExists e.disk p

/-- The nearest file of a name above a path. -/
def closest (p : Path) (name : String) : EngineM (Option Path) := do
  let e ← get
  return e.vfs.closest e.disk p name

/-- Keep a value's serialised form in the content memo under a path and field, at the file's
current modification time; nothing is kept for a value that does not serialise. -/
def storeMemo (path : Path) (field : String) (value? : Option Json) : EngineM Unit :=
  modify fun e => { e with cache := e.cache.storeEncoded path field value? (e.disk.mtime? path) }

/-- A value kept in the content memo under a path and field, computed and stored when absent
or unreadable. The stored value remembers the file's current modification time; a computed
value that does not serialise is returned without being stored. -/
def memoised {α : Type} (path : Path) (field : String) (decode : Json → Except String α)
    (encode : α → Option Json) (compute : EngineM α) : EngineM α := do
  match ((← get).cache.lookup path field).map decode with
  | some (.ok v) => return v
  | _ =>
    let v ← compute
    storeMemo path field (encode v)
    return v

end ModuleBundler
