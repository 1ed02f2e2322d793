import ModuleBundler.CommandLine.Run
import ModuleBundler.Script.Session

/-!
# The scripted interface: runs of the program

A request lays out files in the workspace and runs the program several times over them, each
run in the workspace and seeing what the runs before it left on disk. A run may first write
files, may set environment variables, and may ask for files to be read back after it; it is
answered with its standard output, its standard error, its status and the files read back
(null for one that cannot be read).
-/

namespace ModuleBundler

namespace Script

/-- One run of the program: write its files, run it, and read back the files it names. -/
def programRun (w : Workspace) (disk : Disk) (run : Json) : Json × Disk :=
  let writes := (run.get "write").obj?.getD []
  let disk := writes.foldl (fun d (k, v) =>
    match fileContent v with
    | .ok content => putFile d (w.resolve k) content none
    | .error _ => d) disk
  let vars := ((run.get "env").obj?.getD []).filterMap fun (k, v) => v.str?.map fun s => (k, s)
  let env (name : String) : Option String := vars.lookup name
  let outcome := CommandLine.runProgram w.root.toString env (strsOr run "args" []) disk
  let files := (strsOr run "read" []).map fun p =>
    (p, match outcome.disk.readLossy (w.resolve p) with
      | .ok text => Json.str text
      | .error _ => Json.null)
  (.obj [("files", .obj files), ("status", Json.nat outcome.status), ("stderr", .str outcome.stderr),
    ("stdout", .str outcome.stdout)], outcome.disk)

/-- The answer to a request that runs the program over one workspace. -/
def programAnswer (w : Workspace) (req : Json) : Json :=
  let files := (req.get "files").obj?.getD []
  let setup : Except String Disk := files.foldlM (fun d (k, v) => do
      let content ← fileContent v
      return putFile d (w.resolve k) content (some Disk.setupMtime)) w.freshDisk
  match setup with
  | .error m => badInput m
  | .ok disk =>
    let runs := (req.get "runs").arr?.getD []
    let (answers, _) := runs.foldl (fun (acc : List Json × Disk) run =>
      let (a, d) := programRun w acc.2 run
      (acc.1 ++ [a], d)) ([], disk)
    .obj [("runs", .arr answers)]

end Script

end ModuleBundler
