import ModuleBundler.Script.Project
import ModuleBundler.Script.ProgramRuns

/-!
# The scripted interface: dispatch

One request in, one answer out: the request's `op` field picks the operation.
-/

namespace ModuleBundler

namespace Script

/-- The answer to one request. -/
def answer (w : Workspace) (req : Json) : Json :=
  match strOr req "op" "" with
  | "docblock" => docblockAnswer req
  | "extract" => extractAnswer req
  | "platform_ext" =>
    Json.optStr (platformExtension (Path.ofString (strOr req "path" "")) (strsOr req "platforms" defaultPlatforms))
  | "asset_name" => assetNameAnswer req
  | "path" => pathAnswer req
  | "builtin" => .bool (isBuiltin (strOr req "name" ""))
  | "wrap" => wrapAnswer req
  | "blake3_key" => .str (Blake3.keyOf (strsOr req "parts" []))
  | "version_key" => versionKeyAnswer req
  | "bundle_key" => bundleKeyAnswer req
  | "ignore" => ignoreAnswer req
  | "global_config" => globalConfigAnswer w req
  | "cache" => cacheAnswer req
  | "artifact" => artifactAnswer req
  | "project" => projectAnswer w req
  | "cli" => programAnswer w req
  | other => badInput ("unknown op `" ++ other ++ "`")

end Script

end ModuleBundler
