import ModuleBundler.Module.Naming
import ModuleBundler.Json.Decode

/-!
# Modules

A module is a file or a synthetic piece of code with an identity: its normal path. A source
module is a script or JSON file; an asset module is an image or font, carrying what its file name
says; a polyfill is code prepended to every bundle, depending on every polyfill before it; a null
module stands for a dependency that was deliberately suppressed.

What a source module declares (its global name and its dependencies) is read once per module
and kept in the content memo as a record with the fields `haste_id`, `dependencies` and
`async_dependencies`.
-/

namespace ModuleBundler

/-- What a module is backed by. -/
inductive ModuleKind where
  | source
  | asset (resolution : Single) (name assetType : String)
  | polyfill (id : String) (dependencies : List String) (code : String)
  | null (name : String)
  deriving DecidableEq, Inhabited

/-- The names a kind itself lists as dependencies: a polyfill's, and none for the others. -/
def ModuleKind.listedDependencies : ModuleKind → List String
  | .polyfill _ deps _ => deps
  | _ => []

/-- The code of a suppressed dependency. -/
def nullModuleCode : String := "module.exports = null;"

/-- A module: its number in the registry, its path and its kind. -/
structure Module where
  id : Nat
  path : Path
  kind : ModuleKind
  deriving Inhabited

namespace Module

/-- A source module with the `json` extension. -/
def isJson (m : Module) : Bool := m.kind = .source && m.path.extension? = some "json"

/-- Whether the module is an asset. -/
def isAsset (m : Module) : Bool :=
  match m.kind with
  | .asset .. => true
  | _ => false

/-- Whether the module is a polyfill. -/
def isPolyfill (m : Module) : Bool :=
  match m.kind with
  | .polyfill .. => true
  | _ => false

/-- Whether no file backs the module. -/
def isVirtual (m : Module) : Bool :=
  match m.kind with
  | .null _ | .polyfill .. => true
  | _ => false

/-- The path as printed: a null module's path is the name it stands for, as written. -/
def display (m : Module) : String :=
  match m.kind with
  | .null name => name
  | _ => m.path.toString

end Module

/-- What a module declares: its global name and its dependencies. -/
structure ModuleData where
  hasteId : Option String
  dependencies : List String
  asyncDependencies : List (List String)
  deriving Inhabited, DecidableEq

namespace ModuleData

/-- Nothing declared. -/
def empty : ModuleData := ⟨none, [], []⟩

/-- The memo record. -/
def toJson (d : ModuleData) : Json :=
  .obj [("async_dependencies", .arr (d.asyncDependencies.map Json.strs)),
    ("dependencies", Json.strs d.dependencies), ("haste_id", Json.optStr d.hasteId)]

/-- Read a memo record. -/
def ofJson (j : Json) : Except String ModuleData := do
  if !(j matches .obj _) then throw (Json.invalidType j "struct ModuleData")
  let hasteId ← Json.optField j "haste_id" Json.toStr
  let deps ← Json.reqField j "dependencies" Json.toStrings
  let asyncDeps ← Json.reqField j "async_dependencies" (Json.toList Json.toStrings)
  return ⟨hasteId, deps, asyncDeps⟩

end ModuleData

/-- The key of one memoised resolution: the requiring module, the platform and the name. -/
structure ResolutionKey where
  origin : Nat
  platform : Option String
  name : String
  deriving DecidableEq, Inhabited

end ModuleBundler
