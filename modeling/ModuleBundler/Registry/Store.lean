import ModuleBundler.Engine.State
import ModuleBundler.Source.Docblock
import ModuleBundler.Source.Requires

/-!
# The module registry

One live module per normal path, created on first use and numbered in creation order; the
parsed `package.json` files; and the memoised resolutions `(requiring module, platform, name) ↦
module`, with the reverse index of which resolutions point at each module.

A module's name in a bundle is its global name (`@providesModule`) when it has one, else its
package's name when it is the package's main module, else its path relative to the first root
containing it. Code below a `node_modules` directory only takes part in global naming when its
package's directory is itself a root.

On a change event the changed module is replaced by a fresh one under a new number, and the
resolutions that pointed at it are re-pointed; a deleted module takes those resolutions with
it, and an added or deleted file drops every memoised resolution, since any name may now resolve
differently.
-/

namespace ModuleBundler

open EngineM

namespace Registry

/-- The record of a module, live or not. -/
def record? (r : Registry) (id : Nat) : Option ModuleRecord := r.store[id]?

/-- The live module with a number. -/
def live? (r : Registry) (id : Nat) : Option Module :=
  match r.record? id with
  | some rec => if rec.live then some rec.module else none
  | none => none

/-- The live module of a path. -/
def atPath? (r : Registry) (p : Path) : Option Nat :=
  (r.byPath.lookup p).bind fun id => (r.live? id).map fun _ => id

/-- Add a module under the next number. -/
def insert (r : Registry) (path : Path) (kind : ModuleKind) : Nat × Registry :=
  let id := r.store.size
  (id, { r with store := r.store.push ⟨⟨id, path, kind⟩, none, true⟩ })

/-- Point a path at a module. -/
def setPath (r : Registry) (p : Path) (id : Nat) : Registry :=
  { r with byPath := (p, id) :: r.byPath.filter (·.1 != p) }

/-- The resolutions pointing at a module. -/
def dependerKeys (r : Registry) (id : Nat) : List ResolutionKey := (r.dependers.lookup id).getD []

/-- Replace the resolutions pointing at a module. -/
def setDependerKeys (r : Registry) (id : Nat) (keys : List ResolutionKey) : Registry :=
  { r with dependers := (id, keys) :: r.dependers.filter (·.1 != id) }

/-- Forget the resolutions a module made. -/
def unlinkOutgoing (r : Registry) (id : Nat) : Registry :=
  let outgoing := r.resolved.filter (·.1.origin = id)
  let r := { r with resolved := r.resolved.filter (·.1.origin != id) }
  outgoing.foldl (fun r (key, target) =>
    match r.dependers.lookup target with
    | some keys => r.setDependerKeys target (keys.filter (· != key))
    | none => r) r

end Registry

/-- Update the registry. -/
def modifyRegistry (f : Registry → Registry) : EngineM Unit :=
  modify fun e => { e with registry := f e.registry }

/-- A module by number, live or not. -/
def moduleOf (id : Nat) : EngineM Module := do
  match (← get).registry.record? id with
  | some rec => return rec.module
  | none => fail (.internal "unknown module")

/-- The live module of a path, created with `kind` when there is none. -/
def getOrInsert (path : Path) (kind : Path → ModuleKind) : EngineM Nat := do
  let path := path.normalize
  match (← get).registry.atPath? path with
  | some id => return id
  | none =>
    let (id, r) := (← get).registry.insert path (kind path)
    modifyRegistry fun _ => r.setPath path id
    return id

/-- The live source module of a path. -/
def getModule (path : Path) : EngineM Nat := getOrInsert path fun _ => .source

/-- The live asset module of a path. -/
def getAssetModule (path : Path) : EngineM Nat := do
  let platforms := (← read).opts.platforms
  getOrInsert path fun p =>
    let info := AssetName.parse p platforms
    .asset info.resolution info.name info.assetType

/-- The null module standing for a suppressed dependency. -/
def getNullModule (name : String) : EngineM Nat := do
  let r := (← get).registry
  match (r.nulls.lookup name).bind fun id => (r.live? id).map fun _ => id with
  | some id => return id
  | none =>
    let (id, r) := r.insert (Path.ofString name) (.null name)
    modifyRegistry fun _ => { r with nulls := (name, id) :: r.nulls.filter (·.1 != name) }
    return id

/-- A polyfill keyed by its path; an unchanged polyfill is returned as it is. -/
def createPolyfill (path : Path) (id : String) (deps : List String) (code : String) : EngineM Nat := do
  let path := path.normalize
  let kind := ModuleKind.polyfill id deps code
  let r := (← get).registry
  match (r.atPath? path).bind fun n => (r.live? n).map fun m => (n, m) with
  | some (n, m) => if m.kind = kind then return n else insertFresh path kind
  | none => insertFresh path kind
where
  insertFresh (path : Path) (kind : ModuleKind) : EngineM Nat := do
    let (n, r) := (← get).registry.insert path kind
    modifyRegistry fun _ => r.setPath path n
    return n

/-- The parsed `package.json` at a path; an unreadable or malformed one reads as `{}`. -/
def getPackage (path : Path) : EngineM Package := do
  let path := path.normalize
  match (← get).registry.packages.lookup path with
  | some p => return p
  | none =>
    let json ← match ← attempt (readFile path) with
      | .ok content =>
        match Json.parse content with
        | .ok j => pure j
        | .error _ => pure (Json.obj [])
      | .error _ => pure (Json.obj [])
    let p := Package.make path json
    modifyRegistry fun r => { r with packages := (path, p) :: r.packages }
    return p

/-- The package governing a source or asset module: the nearest `package.json` above it. -/
def packageFor (m : Module) : EngineM (Option Package) := do
  match m.kind with
  | .source | .asset .. =>
    match ← closest m.path "package.json" with
    | some p => return some (← getPackage p)
    | none => return none
  | _ => return none

/-- What a source file declares. -/
def readSource (m : Module) : EngineM ModuleData := do
  let content ← readFile m.path
  let doc := Docblock.parse content
  let hasteId := doc.providesModule?
  if m.isJson || doc.isExtern then return ⟨hasteId, [], []⟩
  let deps := extractRequires content
  return ⟨hasteId, deps.sync, deps.asyncGroups⟩

/-- What a module declares, read once per module. -/
def moduleData (id : Nat) : EngineM ModuleData := do
  match (← get).registry.record? id with
  | none => fail (.internal "unknown module")
  | some rec =>
    match rec.data with
    | some d => return d
    | none =>
      let d ← match rec.module.kind with
        | .source =>
          memoised rec.module.path "moduleData" ModuleData.ofJson (fun d => some d.toJson)
            (readSource rec.module)
        | .polyfill _ deps _ => pure ⟨none, deps, []⟩
        | _ => pure ModuleData.empty
      modifyRegistry fun r =>
        match r.store[id]? with
        | some rc => { r with store := r.store.set! id { rc with data := some d } }
        | none => r
      return d

/-- Whether a module may take part in global naming. -/
def isHasteCompatible (m : Module) (pkg : Option Package) : EngineM Bool := do
  if !m.path.components.contains (.name "node_modules") then return true
  let roots := (← get).vfs.roots
  return pkg.any fun p => roots.contains p.root

/-- Whether a module is its package's main module. -/
def isMain (m : Module) (pkg : Package) : Bool :=
  let main := pkg.main
  m.path = main || m.path.withoutExtension = main || m.path = main.push "index.js"

/-- Whether a module registers a global name. -/
def isHaste (id : Nat) : EngineM Bool := do
  let m ← moduleOf id
  match m.kind with
  | .source =>
    let pkg ← packageFor m
    if !(← isHasteCompatible m pkg) then return false
    return (← moduleData id).hasteId.isSome
  | _ => return false

/-- A path relative to the first root containing it, or the whole path. -/
def relativeName (p : Path) : EngineM String := do
  let roots := (← get).vfs.roots
  return (roots.findSome? fun r => r.relativeSlash? p).getD p.toString

/-- The name a module is registered under in a bundle. -/
def moduleName (id : Nat) : EngineM String := do
  let m ← moduleOf id
  match m.kind with
  | .null name => return name
  | .polyfill pid _ _ => return pid
  | .asset _ name ty =>
    let rel ← relativeName m.path
    let cs := rel.toList
    match cs.reverse.findIdx? (· = '/') with
    | some fromEnd => return String.ofList (cs.take (cs.length - 1 - fromEnd)) ++ "/" ++ name ++ "." ++ ty
    | none => return name ++ "." ++ ty
  | .source =>
    let pkg ← packageFor m
    if ← isHasteCompatible m pkg then
      if let some hid := (← moduleData id).hasteId then return hid
      if let some p := pkg then
        if let some n := p.name? then
          if isMain m p then return n
    relativeName m.path

/-- The memoised resolution of a key, when its module is live. -/
def resolvedGet (key : ResolutionKey) : EngineM (Option Nat) := do
  let r := (← get).registry
  return (r.resolved.lookup key).bind fun id => (r.live? id).map fun _ => id

/-- Memoise a resolution. -/
def setResolved (key : ResolutionKey) (target : Nat) : EngineM Unit :=
  modifyRegistry fun r =>
    let previous := r.resolved.lookup key
    let r := { r with resolved := (r.resolved.filter fun (kt : ResolutionKey × Nat) => kt.1 != key) ++ [(key, target)] }
    let r := match previous with
      | some p => r.setDependerKeys p ((r.dependerKeys p).filter (· != key))
      | none => r
    let keys := r.dependerKeys target
    r.setDependerKeys target (if keys.contains key then keys else keys ++ [key])

/-- The live modules whose memoised resolutions point at a module, by number. -/
def dependersOf (id : Nat) : EngineM (List Nat) := do
  let r := (← get).registry
  let ids := Text.sortBy ((r.dependerKeys id).map (·.origin)) (· ≤ ·)
  return (ids.eraseDups).filter fun i => (r.live? i).isSome

/-- Forget every memoised resolution. -/
def clearResolutions : EngineM Unit :=
  modifyRegistry fun r => { r with resolved := [], dependers := [] }

/-- The number of memoised resolutions. -/
def resolutionCount : EngineM Nat := do return (← get).registry.resolved.length

/-- Apply a change to the registry. -/
def registryChange (change : FileChange) : EngineM Unit := do
  modify fun e => { e with cache := (e.cache.invalidate change.path).2 }
  let r := (← get).registry
  let r := match r.atPath? change.path with
    | none => r
    | some old =>
      let kind : ModuleKind := ((r.live? old).map Module.kind).getD .source
      let r := { r with byPath := r.byPath.filter (·.1 != change.path),
                        store := r.store.modify old fun rc => { rc with live := false } }
      let r := r.unlinkOutgoing old
      let deps := r.dependerKeys old
      let r := { r with dependers := r.dependers.filter (·.1 != old) }
      if change.kind = ChangeKind.delete then
        { r with resolved := r.resolved.filter fun kt => !deps.contains kt.1 }
      else
        let (rebuilt, r) := r.insert change.path kind
        let r := r.setPath change.path rebuilt
        let r := { r with resolved := r.resolved.map fun (k, t) => if deps.contains k then (k, rebuilt) else (k, t) }
        if deps.isEmpty then r else r.setDependerKeys rebuilt deps
  let r := if change.kind = ChangeKind.change then r else { r with resolved := [], dependers := [] }
  modifyRegistry fun _ => { r with packages := r.packages.filter (·.1 != change.path) }

/-- Drop every module, package and memoised value. -/
def refreshRegistry : EngineM Unit :=
  modify fun e => { e with registry := Registry.empty, cache := e.cache.clear }

/-- Every live module with its memoised resolutions and the modules resolving to it. -/
def debugDump : EngineM String := do
  let r := (← get).registry
  let live := (r.store.toList.filter (·.live)).map (·.module)
  let live := Text.sortBy live fun a b => a.path.cmp b.path != .gt
  let lines := live.flatMap fun m =>
    let deps := Text.sortBy (r.resolved.filter (·.1.origin = m.id)) fun a b => decide (a.1.name ≤ b.1.name)
    let depLines := deps.filterMap fun (k, t) =>
      (r.live? t).map fun tm => "  -> " ++ k.name ++ " => " ++ tm.display
    let fromLines := match r.dependers.lookup m.id with
      | some keys =>
        let froms := (keys.filterMap fun k => (r.live? k.origin).map Module.display)
        ((Text.sortBy froms fun a b => decide (a ≤ b)).eraseDups).map ("  <- " ++ ·)
      | none => []
    (m.display :: depLines) ++ fromLines
  return String.join (lines.map (· ++ "\n"))

end ModuleBundler
