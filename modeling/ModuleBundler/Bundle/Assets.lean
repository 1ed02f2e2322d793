import ModuleBundler.Vfs.Tree
import ModuleBundler.Module.Naming
import ModuleBundler.Hash.Blake3

/-!
# The asset index

Variants of an asset live next to each other as `name[@<scale>x][.<platform>].<ext>`. A require
of an asset picks the variant of smallest scale, among the variants for the requested platform
when there are any, else among the variants without a platform. An asset's data lists every
selected variant's scale and file, and a hash of their contents.
-/

namespace ModuleBundler

/-- Every variant of one logical asset. -/
structure AssetData where
  scales : List Single
  files : List Path
  hash : String
  name : String
  assetType : String
  deriving Inhabited

/-- The asset index: the asset extensions and the platforms. -/
structure AssetIndex where
  exts : List String
  platforms : List String
  deriving Inhabited

namespace AssetIndex

/-- Whether a name has an asset extension. -/
def isAsset (ai : AssetIndex) (name : String) : Bool :=
  match (Path.ofString name).extension? with
  | some e => ai.exts.contains e
  | none => false

/-- A text with the characters special in patterns escaped. -/
def escape (s : String) : String :=
  String.join (s.toList.map fun c => if "\\.+*?()|[]\x7b\x7d^$".toList.contains c then "\\" ++ c.toString else c.toString)

/-- The pattern the variants of the asset at a path are listed through: its name, a scale and a
platform that may be absent, and its type. -/
def variantPattern (ai : AssetIndex) (path : Path) : String :=
  let wanted := AssetName.parse path ai.platforms
  "/" ++ escape wanted.name ++ "(@[0-9.]+x)?(\\.[a-z]+)?\\." ++ escape wanted.assetType ++ "$"

/-- The variants of an asset beside it, limited to the platform when it has some, sorted by
scale. -/
def variants (ai : AssetIndex) (v : Vfs) (disk : Disk) (path : Path) (platform : Option String) :
    List (Path × AssetName) :=
  match path.parent? with
  | none => []
  | some dir =>
    let wanted := AssetName.parse path ai.platforms
    match Regex.compile (ai.variantPattern path) with
    | .error _ => []
    | .ok re =>
      let found := match v.childrenMatching dir re with
        | .ok ps => ps
        | .error _ => []
      let candidates := (found.filter (v.fileExists disk)).map (fun p => (p, AssetName.parse p ai.platforms))
        |>.filter fun (_, info) => info.name = wanted.name && info.assetType = wanted.assetType
      let hasPlatform := match platform with
        | some p => candidates.any fun (_, info) => info.platform = some p
        | none => false
      let selected := candidates.filter fun (_, info) =>
        if hasPlatform then info.platform = platform else info.platform.isNone
      Text.sortBy selected fun a b => a.2.resolution.bits ≤ b.2.resolution.bits

/-- The file backing an asset required as `name` from `fromDir`. -/
def resolve (ai : AssetIndex) (v : Vfs) (disk : Disk) (fromDir : Path) (name : String)
    (platform : Option String) : Option Path :=
  if !ai.isAsset name then none
  else
    let path? := if name.startsWith "/" then some (Path.ofString name).normalize
      else if name.startsWith "." then some (fromDir.join (Path.ofString name)).normalize
      else none
    match path? with
    | none => none
    | some path =>
      if v.fileExists disk path && (AssetName.parse path ai.platforms).platform.isNone then
        match ai.variants v disk path platform with
        | (best, _) :: _ => some best
        | [] => some path
      else (ai.variants v disk path platform).head?.map (·.1)

/-- The bytes of files one after the other. -/
def readAll (disk : Disk) (files : List Path) : Except IoError (List UInt8) :=
  files.foldlM (fun acc f => (disk.readBytes f).map (acc ++ ·)) []

/-- The variants of the asset at a path, with their scales and a hash of their contents. -/
def assetData (ai : AssetIndex) (v : Vfs) (disk : Disk) (path : Path) (platform : Option String) :
    Except IoError AssetData := do
  let info := AssetName.parse path ai.platforms
  let vs := match ai.variants v disk path platform with
    | [] => [(path, info)]
    | vs => vs
  let files := vs.map (·.1)
  let bytes ← readAll disk files
  return ⟨vs.map (·.2.resolution), files, Blake3.hexDigest bytes, info.name, info.assetType⟩

end AssetIndex

end ModuleBundler
