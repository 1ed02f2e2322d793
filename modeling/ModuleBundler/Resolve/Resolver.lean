import ModuleBundler.Registry.Haste

/-!
# Resolving a required name

A name required from a module resolves, for one platform, through these stages in order: an
asset lookup for names with an asset extension; the requiring package's replacement map; the
project-wide redirects; and then four strategies, the first that finds a module winning: a
global name (or a path inside a globally named package), a relative or absolute path, a package
in a `node_modules` directory of the module's directory or one above it, and a core module of
the JavaScript runtime, which becomes a null module.

A path is tried as a file, then with `.platform.js`, `.native.js` (when native files are
preferred), `.js`, `.jsx` and `.json` appended to its text, and then as a directory: through the
`main` of its `package.json`, else as `index`. The suffix goes onto the text of the path as it
was built, so a path written with a trailing `/` tries names inside the directory.

Successful resolutions are memoised in the registry.
-/

namespace ModuleBundler

open EngineM

/-- The platform of a resolution and whether native files are preferred. -/
structure Request where
  platform : Option String
  preferNative : Bool

/-- Whether a name is a path: it starts with `.` or `/`. -/
def isPathLike (name : String) : Bool := name.startsWith "." || name.startsWith "/"

/-- Whether a name has an extension of the asset extensions in effect. -/
def isAssetName (name : String) : EngineM Bool := do
  let exts := (← read).assetExts
  return match (Path.ofString name).extension? with
    | some e => exts.contains e
    | none => false

/-- The module of a found file, an asset module for an asset extension. -/
def moduleForFile (file : String) : EngineM Nat := do
  if ← isAssetName file then getAssetModule (Path.ofString file) else getModule (Path.ofString file)

/-- The directory of a module, the root for a module without one. -/
def directoryOf (m : Module) : Path := m.path.parent?.getD (Path.ofString "/")

namespace Request

/-- The suffixes tried after a path's own text. -/
def suffixes (req : Request) : List String :=
  (req.platform.map fun p => ["." ++ p ++ ".js"]).getD [] ++
    (if req.preferNative then [".native.js"] else []) ++ [".js", ".jsx", ".json"]

/-- The file a path stands for as a file. -/
def loadAsFile (req : Request) (path : String) : EngineM (Option String) := do
  if ← fileExists (Path.ofString path) then return some path
  req.suffixes.findSomeM? fun s => do
    let candidate := path ++ s
    return if ← fileExists (Path.ofString candidate) then some candidate else none

/-- The failure of a chain of `main` directories that does not end. -/
def mainChainError : Error := .internal "package main chain did not end"

/-- The file a path stands for as a directory: the `main` of its `package.json`, as a file and
then as a directory in turn, unless it names the directory itself; else the directory's `index`.
Nothing else bounds the chain of `main` directories, so a chain that comes back to a directory it
left never ends: `fuel` stands for the depth a run can reach, and running out of it fails. -/
def loadAsDir (req : Request) : Nat → String → EngineM (Option String)
  | 0, _ => fail mainChainError
  | fuel + 1, dir => do
    if !(← dirExists (Path.ofString dir)) then return none
    let manifest := joinText dir "package.json"
    if ← fileExists (Path.ofString manifest) then
      let main := (← getPackage (Path.ofString manifest)).main
      if main != Path.ofString dir then
        if let some f ← req.loadAsFile main.toString then return some f
        if let some f ← req.loadAsDir fuel main.toString then return some f
    req.loadAsFile (joinText dir "index")

/-- How deep a chain of `main` directories may run: further than there are directories, so that
only a chain that comes back to a directory runs out, and further than any stack reaches. -/
def dirFuel : EngineM Nat := do
  let e ← get
  return e.vfs.nodes.length + e.disk.entries.length + 1 + Nat.pow 2 64

/-- The module a path stands for, as a file or as a directory. -/
def loadFileOrDir (req : Request) (path : String) : EngineM (Option Nat) := do
  let file ← match ← req.loadAsFile path with
    | some f => pure (some f)
    | none => req.loadAsDir (← dirFuel) path
  match file with
  | some f => return some (← moduleForFile f)
  | none => return none

/-- The positions of `/` in a name, last first. -/
def slashesFromEnd (name : String) : List Nat :=
  ((name.toList.zipIdx.filter (·.1 = '/')).map (·.2)).reverse

/-- A global name, or a path inside a globally named package. -/
def resolveHaste (req : Request) (name : String) : EngineM (Option Nat) := do
  if isPathLike name then return none
  let haste := (← get).haste
  match haste.get? name req.platform with
  | some (.module p) => return some (← getModule p)
  | some (.package p) => req.loadFileOrDir (← getPackage p).main.toString
  | none =>
    let cs := name.toList
    let found := (slashesFromEnd name).findSome? fun i =>
      match haste.get? (String.ofList (cs.take i)) req.platform with
      | some (.package p) => some (p, String.ofList (cs.drop (i + 1)))
      | _ => none
    match found with
    | some (p, rest) =>
      let root := p.parent?.getD (Path.ofString "/")
      req.loadFileOrDir (root.join (Path.ofString rest)).normalize.toString
    | none => return none

/-- A relative or absolute path. -/
def resolvePath (req : Request) (m : Module) (name : String) : EngineM (Option Nat) := do
  if !isPathLike name then return none
  let path := if name.startsWith "/" then (Path.ofString name).normalize
    else ((directoryOf m).join (Path.ofString name)).normalize
  req.loadFileOrDir path.toString

/-- The directory and each directory above it. -/
def ancestors (p : Path) : List Path :=
  go (p.components.length + 1) p
where
  go : Nat → Path → List Path
    | 0, _ => []
    | fuel + 1, p =>
      match p.parent? with
      | some q => p :: go fuel q
      | none => [p]

/-- A package in a `node_modules` directory of the module's directory or one above. -/
def resolveNodeModules (req : Request) (m : Module) (name : String) : EngineM (Option Nat) := do
  if isPathLike name then return none
  (ancestors (directoryOf m)).findSomeM? fun dir => do
    if dir.fileName? = some "node_modules" then return none
    req.loadFileOrDir (joinText (joinText dir.toString "node_modules") name)

/-- A core module of the runtime, as a null module. -/
def resolveBuiltin (name : String) : EngineM (Option Nat) := do
  if isBuiltin name then return some (← getNullModule name) else return none

/-- Resolve a name through every stage, without the memo. -/
def resolveUncached (req : Request) (m : Module) (name : String) : EngineM Nat := do
  let fromDir := directoryOf m
  let ctx ← read
  if ← isAssetName name then
    let e ← get
    if let some p := ctx.assets.resolve e.vfs e.disk fromDir name req.platform then
      return ← getAssetModule p
  let mut name := name
  if let some pkg ← packageFor m then
    let lookup := if name.startsWith "." then (fromDir.join (Path.ofString name)).normalize.toString
      else name
    match pkg.redirectRequire lookup with
    | .suppressed => return ← getNullModule name
    | .to t =>
      name := if t.startsWith "." then (pkg.root.join (Path.ofString t)).normalize.toString else t
    | .unchanged => pure ()
  match ctx.global.redirectFor name with
  | some (.suppress false) => return ← getNullModule name
  | some (.to t) => name := t
  | _ => pure ()
  if let some id ← req.resolveHaste name then return id
  if let some id ← req.resolvePath m name then return id
  if let some id ← req.resolveNodeModules m name then return id
  if let some id ← resolveBuiltin name then return id
  fail (.unableToResolve m.path name req.platform)

/-- Resolve a name required from a module, through the memo. -/
def resolveDependency (req : Request) (origin : Nat) (name : String) : EngineM Nat := do
  let key : ResolutionKey := ⟨origin, req.platform, name⟩
  if let some id ← resolvedGet key then return id
  let id ← req.resolveUncached (← moduleOf origin) name
  setResolved key id
  return id

end Request

end ModuleBundler
