import ModuleBundler.Bundle.SourceMap
import ModuleBundler.Source.Wrap
import ModuleBundler.Encoding.Base64
import ModuleBundler.Error

/-!
# Bundles

A `Bundle` is the concatenation of its modules' code, one module after the other separated by
line feeds, followed by the calls that run the modules marked to run before the main module
and then the main module itself. Once finalized it refuses further modules. Its source map has
a section for every module backed by a file, placed after the wrapper's header line when the
module is wrapped.

A `PrepackBundle` keeps every module's code unwrapped together with the names its specifiers
resolved to, for an ahead-of-time linker. An `HmrBundle` holds the hot-update patches of the
modules that changed.
-/

namespace ModuleBundler

/-- One module as emitted into a bundle. -/
structure ModuleTransport where
  /-- The name the module is registered under. -/
  name : String
  /-- The final code, wrapped or not. -/
  code : String
  /-- The transformer's map of the unwrapped code, if it gave one. -/
  map : Option Json
  sourceCode : String
  sourcePath : String
  /-- No file backs the code. -/
  isVirtual : Bool
  /-- The code carries the registration wrapper. -/
  wrapped : Bool
  /-- Specifiers and the names they resolved to, sorted by specifier. -/
  dependencies : List (String × String)
  deriving Inhabited

namespace ModuleTransport

/-- The record form: the map and the dependencies only when present. -/
def toJson (m : ModuleTransport) : Json :=
  .obj ([("name", .str m.name), ("code", .str m.code)] ++
    (match m.map with
     | some j => [("map", j)]
     | none => []) ++
    [("sourceCode", .str m.sourceCode), ("sourcePath", .str m.sourcePath), ("virtual", .bool m.isVirtual)] ++
    (if m.dependencies.isEmpty then []
     else [("dependencies", .obj (m.dependencies.map fun (k, v) => (k, .str v)))]))

end ModuleTransport

/-- A bundle under construction or finished. -/
structure Bundle where
  modules : Array ModuleTransport
  assets : Array Json
  mainModuleId : Option String
  numPrepended : Nat
  sourceMapUrl : Option String
  finalized : Bool
  deriving Inhabited

namespace Bundle

/-- An empty bundle referring to its map at `url`, if any. -/
def new (url : Option String) : Bundle := ⟨#[], #[], none, 0, url, false⟩

/-- The failure of changing a finished bundle. -/
def finishedError : Error := .internal "Attempted to modify a finalized bundle"

/-- Append a module. -/
def addModule (b : Bundle) (m : ModuleTransport) : Except Error Bundle :=
  if b.finalized then .error finishedError else .ok { b with modules := b.modules.push m }

/-- Record an asset descriptor. -/
def addAsset (b : Bundle) (asset : Json) : Bundle := { b with assets := b.assets.push asset }

/-- The module running the module `id`. -/
def requireModule (id : String) : ModuleTransport :=
  let code := Wrap.requireCall id
  let name := "require-" ++ id
  ⟨name, code, none, code, name ++ ".js", true, false, []⟩

/-- Append the calls running the modules to run first and the main module, when the main module
is to be run, and freeze the bundle. -/
def finalize (b : Bundle) (runMain : Bool) (runBefore : List String) : Except Error Bundle :=
  if b.finalized then .error finishedError
  else
    let calls := if runMain then runBefore ++ b.mainModuleId.toList else []
    .ok { b with modules := b.modules ++ (calls.map requireModule).toArray, finalized := true }

/-- The paths of the modules backed by files. -/
def modulePaths (b : Bundle) : List String :=
  (b.modules.toList.filter (!·.isVirtual)).map (·.sourcePath)

/-- The indexed map with one section per file-backed module. -/
def sourceMap (b : Bundle) : Json :=
  let step := fun (acc : Nat × List SourceMap.Section) (m : ModuleTransport) =>
    let (line, sections) := acc
    let sections :=
      if m.isVirtual then sections
      else
        let header := if m.wrapped then Wrap.headerLines else 0
        let map := m.map.getD (SourceMap.identityMap m.sourcePath m.sourceCode)
        ⟨line + header, map⟩ :: sections
    (line + SourceMap.lineCount m.code, sections)
  let (_, sections) := b.modules.foldl step (0, [])
  SourceMap.indexedMap "bundle.js" sections.reverse

/-- The bundle's code, with the map appended as a data URL or referred to by its URL. -/
def source (b : Bundle) (inlineSourceMap : Bool) : String :=
  let code := "\n".intercalate (b.modules.toList.map (·.code))
  if inlineSourceMap then
    code ++ "\n//# sourceMappingURL=data:application/json;base64," ++
      Base64.encodeText (Json.compact b.sourceMap)
  else
    match b.sourceMapUrl with
    | some url => code ++ "\n//# sourceMappingURL=" ++ url
    | none => code

end Bundle

/-- A bundle for an ahead-of-time linker. -/
structure PrepackBundle where
  modules : Array ModuleTransport
  polyfills : Array String
  mainModuleId : Option String
  finalized : Bool
  deriving Inhabited

namespace PrepackBundle

/-- An empty prepack bundle. -/
def new : PrepackBundle := ⟨#[], #[], none, false⟩

/-- The failure of changing a finished prepack bundle. -/
def finishedError : Error := .internal "Attempted to modify a finalized prepack bundle"

/-- Append a module. -/
def addModule (b : PrepackBundle) (m : ModuleTransport) : Except Error PrepackBundle :=
  if b.finalized then .error finishedError else .ok { b with modules := b.modules.push m }

/-- Append a polyfill's code. -/
def addPolyfill (b : PrepackBundle) (code : String) : Except Error PrepackBundle :=
  if b.finalized then .error finishedError else .ok { b with polyfills := b.polyfills.push code }

/-- Set the main module and freeze the bundle. -/
def finalize (b : PrepackBundle) (main : Option String) : Except Error PrepackBundle :=
  if b.finalized then .error finishedError else .ok { b with mainModuleId := main, finalized := true }

/-- The linker input: modules by name, the polyfills in load order, the main module. -/
def toJson (b : PrepackBundle) : Json :=
  let modules := Json.sortedObject (b.modules.toList.map fun m =>
    (m.name, .obj [("code", .str m.code),
      ("dependencies", .obj (m.dependencies.map fun (k, v) => (k, .str v))),
      ("sourcePath", .str m.sourcePath)]))
  .obj [("mainModuleId", Json.optStr b.mainModuleId), ("modules", modules),
    ("polyfills", Json.strs b.polyfills.toList)]

end PrepackBundle

/-- Hot-update patches, in request order. -/
structure HmrBundle where
  modules : Array ModuleTransport
  deriving Inhabited

namespace HmrBundle

/-- No patch. -/
def new : HmrBundle := ⟨#[]⟩

/-- Append a patch. -/
def addModule (b : HmrBundle) (m : ModuleTransport) : HmrBundle := ⟨b.modules.push m⟩

/-- The names of the patched modules. -/
def names (b : HmrBundle) : List String := b.modules.toList.map (·.name)

/-- The patches' code. -/
def source (b : HmrBundle) : String := "\n".intercalate (b.modules.toList.map (·.code))

/-- Whether there is no patch. -/
def isEmpty (b : HmrBundle) : Bool := b.modules.isEmpty

end HmrBundle

end ModuleBundler
