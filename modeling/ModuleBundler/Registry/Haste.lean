import ModuleBundler.Registry.Store
import ModuleBundler.Module.Naming

/-!
# The global name index

Every `.js` file with a `@providesModule` name outside foreign `node_modules` code registers
that name, and every `package.json` at the top of a root registers the package's name. A name
holds one entry per platform, the platform taken from a `name.platform.js` file name, and one
entry for every platform; a second file claiming a held slot is a naming collision.

Files are scanned in path order, so which of two colliding files is reported is fixed. A change
to one file removes the names it held and registers what it declares now; the answer says
whether the slots it holds changed.
-/

namespace ModuleBundler

open EngineM

namespace HasteMap

/-- An empty index. -/
def empty : HasteMap := ⟨[]⟩

/-- The entry of a name for a platform, else its entry for every platform. -/
def get? (h : HasteMap) (name : String) (platform : Option String) : Option HasteEntry :=
  match h.names.lookup name with
  | none => none
  | some variants =>
    match platform.bind fun p => variants.lookup (some p) with
    | some e => some e
    | none => variants.lookup none

/-- The number of names. -/
def size (h : HasteMap) : Nat := h.names.length

/-- Order of slots: by name, then platform, the slot for every platform first. -/
def slotLe (a b : String × Option String) : Bool :=
  if a.1 < b.1 then true
  else if a.1 = b.1 then
    match a.2, b.2 with
    | none, _ => true
    | some _, none => false
    | some x, some y => decide (x ≤ y)
  else false

/-- The slots a file holds, sorted. -/
def slotsFor (h : HasteMap) (p : Path) : List (String × Option String) :=
  let slots := h.names.flatMap fun (name, variants) =>
    (variants.filter fun (_, e) => e.path = p).map fun (platform, _) => (name, platform)
  Text.sortBy slots slotLe

/-- Drop every slot a file holds, and the names left without slots. -/
def removePath (h : HasteMap) (p : Path) : HasteMap :=
  ⟨(h.names.map fun (name, variants) => (name, variants.filter fun (_, e) => e.path != p)).filter
    fun (_, variants) => !variants.isEmpty⟩

/-- Register a name for an entry, in the slot of the entry's platform. -/
def register (h : HasteMap) (platforms : List String) (name : String) (entry : HasteEntry) :
    Except Error HasteMap :=
  let platform := platformExtension entry.path platforms
  let variants := (h.names.lookup name).getD []
  match variants.lookup platform with
  | some existing =>
    if existing.path = entry.path then .ok h
    else .error (.namingCollision name platform entry.path existing.path)
  | none =>
    let variants := variants ++ [(platform, entry)]
    if (h.names.lookup name).isSome then
      .ok ⟨h.names.map fun (n, vs) => if n = name then (n, variants) else (n, vs)⟩
    else .ok ⟨h.names ++ [(name, variants)]⟩

end HasteMap

/-- The name a file registers, if any. -/
def detectName (file : Path) : EngineM (Option (String × HasteEntry)) := do
  if file.fileName? = some "package.json" then
    let pkg ← getPackage file
    let roots := (← get).vfs.roots
    match pkg.name? with
    | some name => return if roots.contains pkg.root then some (name, .package pkg.path) else none
    | none => return none
  if file.extension? != some "js" then return none
  let id ← getModule file
  if !(← isHaste id) then return none
  let name ← moduleName id
  let m ← moduleOf id
  return some (name, .module m.path)

/-- Register a name in the index of the engine. -/
def registerName (name : String) (entry : HasteEntry) : EngineM Unit := do
  let platforms := (← read).opts.platforms
  let h ← lift id ((← get).haste.register platforms name entry)
  modify fun e => { e with haste := h }

/-- Scan every known `.js` and `package.json` file; every file is read before the first
failure is reported. -/
def buildHasteMap : EngineM HasteMap := do
  let files := (← get).vfs.findByExts ["js", "json"]
  let detected ← files.mapM fun f => attempt (detectName f)
  let platforms := (← read).opts.platforms
  let found ← detected.mapM fun r => lift id r
  found.filterMap id |>.foldlM (fun h (name, entry) => lift id (h.register platforms name entry))
    HasteMap.empty

/-- Apply a change of one file to the index of the engine; whether the file's slots changed. -/
def hasteChange (change : FileChange) : EngineM Bool := do
  let before := (← get).haste.slotsFor change.path
  if change.kind != ChangeKind.add then
    modify fun e => { e with haste := e.haste.removePath change.path }
  let candidate := change.path.extension? = some "js" || change.path.extension? = some "json"
  if change.kind != ChangeKind.delete && candidate then
    if let some (name, entry) ← detectName change.path then
      registerName name entry
  return (← get).haste.slotsFor change.path != before

end ModuleBundler
