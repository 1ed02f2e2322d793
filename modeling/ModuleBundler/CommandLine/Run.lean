import ModuleBundler.CommandLine.Parse
import ModuleBundler.Engine.Packager

/-!
# The command line: running a task

A run starts a packager over the roots (the working directory unless roots are given, each
joined onto it as written), with the configuration file named or found in the first root, the
blacklist, and a persisted memo when a cache directory is named. `deps` prints the ordered
dependency paths, one per line or as a JSON array; `bundle` prints or writes the bundle, or the
prepacked bundle as indented JSON, writes the source map where asked, and shuts the packager
down, persisting its memo; `watch` announces how many roots it watches and, when interrupted,
shuts down the same way. Files named on the command line are taken from the directory the
program runs in.

A failure ends the run with status 1 and a report on standard error: the error's text, its
severity, and the failures beneath it. A failed build reports only what a client may see of
the error, and with `--json` its payload is printed first on standard output. Mistakes in the
arguments end it with status 2, help and the version with status 0.
-/

namespace ModuleBundler

/-- The payload of an error as a record, fields in a fixed order. -/
def ErrorPayload.toJson (p : ErrorPayload) : Json :=
  .obj [("type", .str p.kind), ("description", .str p.description), ("filename", Json.optStr p.filename),
    ("lineNumber", Json.opt Json.nat p.lineNumber)]

namespace CommandLine

open EngineM

/-- What a run leaves behind: its standard output and standard error, its status, and the
disk. -/
structure Outcome where
  stdout : String
  stderr : String
  status : Nat
  disk : Disk
  deriving Inhabited

/-- The report of a failure: its text, its severity, then the failures beneath it. -/
def failureReport (description : String) (causes : List String) : String :=
  "Error: " ++ description ++ "\n    Diagnostic severity: error\n" ++
    String.join (causes.map fun c => "    Caused by: " ++ c ++ "\n") ++ "\n"

/-- A run under way: what it has printed and the packager's state. -/
structure Run where
  stdout : String
  stderr : String
  ctx : Context
  engine : Engine

namespace Run

/-- Run an operation of the packager. -/
def exec {α : Type} (r : Run) (x : EngineM α) : Except Error α × Run :=
  let (result, engine) := x.run r.ctx r.engine
  (result, { r with engine := engine })

/-- Print on standard output. -/
def print (r : Run) (text : String) : Run := { r with stdout := r.stdout ++ text }

/-- End with success. -/
def succeed (r : Run) : Outcome := ⟨r.stdout, r.stderr, 0, r.engine.disk⟩

/-- End with a failure report. -/
def fail (r : Run) (report : String) : Outcome := ⟨r.stdout, r.stderr ++ report, 1, r.engine.disk⟩

/-- End with a failed build: its payload first when JSON is asked for, then what a client may
see of it. -/
def failBuild (r : Run) (json : Bool) (e : Error) : Outcome :=
  let r := if json then r.print (Json.compact e.payload.toJson ++ "\n") else r
  r.fail (failureReport e.payload.description [])

/-- Shut the packager down and end. -/
def finish (r : Run) : Outcome :=
  match r.exec shutdownPackager with
  | (.ok _, r) => r.succeed
  | (.error e, r) => r.fail (failureReport e.message e.causes)

/-- Write a text to a file. -/
def write (r : Run) (path : Path) (text : String) : Except IoError Run :=
  (r.engine.disk.writeFile path text.toUTF8.toList).map fun d => { r with engine := { r.engine with disk := d } }

/-- Print a text, or write it to a file. -/
def emit (r : Run) (out : Option Path) (text : String) : Except IoError Run :=
  match out with
  | some path => r.write path text
  | none => .ok (r.print text)

end Run

/-- The options of a bundle request. -/
def BundleRequest.options (b : BundleRequest) : BundleOptions :=
  { BundleOptions.forEntry b.entry with
    platform := b.platform, dev := b.dev, minify := b.minify, runModule := b.runModule,
    runBeforeMainModule := b.runBeforeMain, unbundle := b.unbundle, inlineSourceMap := b.inlineSourceMap }

/-- Run `deps`: the ordered dependency paths of the entry. -/
def runDeps (r : Run) (json : Bool) (entry : String) (platform : Option String) (dev : Bool) : Outcome :=
  let opts := { BundleOptions.forEntry entry with dev := dev, platform := platform }
  match r.exec (orderedDependencyPaths opts) with
  | (.error e, r) => r.failBuild json e
  | (.ok paths, r) =>
    let texts := paths.map Path.toString
    (r.print (if json then Json.compact (Json.strs texts) ++ "\n" else String.join (texts.map (· ++ "\n")))).succeed

/-- Run `bundle`; files are taken from `here`. -/
def runBundle (r : Run) (json : Bool) (here : String) (b : BundleRequest) : Outcome :=
  let opts := b.options
  let out := b.out.map fun p => Path.ofString (joinText here p)
  if b.prepack then
    match r.exec (prepackBuild opts) with
    | (.error e, r) => r.failBuild json e
    | (.ok p, r) =>
      match r.emit out (Json.pretty p.toJson) with
      | .error io => r.fail (failureReport io.message [])
      | .ok r => r.finish
  else
    match r.exec (buildBundle opts) with
    | (.error e, r) => r.failBuild json e
    | (.ok (bundle, _), r) =>
      match r.emit out (bundle.source opts.inlineSourceMap) with
      | .error io => r.fail (failureReport io.message [])
      | .ok r =>
        let mapped := match b.sourceMapOut with
          | some p => r.write (Path.ofString (joinText here p)) (Json.compact bundle.sourceMap)
          | none => .ok r
        match mapped with
        | .error io => r.fail (failureReport io.message [])
        | .ok r => r.finish

/-- Run `watch` until it is interrupted. -/
def runWatch (r : Run) : Outcome :=
  let roots := r.engine.vfs.roots
  match roots.find? fun root => !r.engine.disk.isDir root with
  | some bad => r.fail (failureReport (Error.watch ("Invalid watch root: " ++ bad.toString)).message [])
  | none =>
    let r := { r with stderr := r.stderr ++ s!"Watching {roots.length} root(s)... (ctrl+c to exit)\n" }
    r.finish

/-- Run an invocation in the directory `here`. -/
def runInvocation (here : String) (inv : Invocation) (disk : Disk) : Outcome :=
  let cwd := inv.cwd.getD here
  let roots := if inv.roots.isEmpty then [cwd] else inv.roots.map (joinText cwd)
  let global := match inv.config with
    | some p => GlobalConfig.load disk (joinText cwd p)
    | none => GlobalConfig.discover disk (roots.headD cwd)
  let failed (e : Error) : Outcome := ⟨"", failureReport e.message e.causes, 1, disk⟩
  match global with
  | .error e => failed e
  | .ok global =>
    let opts := { PackagerOptions.default with
      projectRoots := roots, blacklist := inv.blacklist, resetCache := inv.resetCache,
      cacheDir := inv.cacheDir.map fun p => Path.ofString (joinText cwd p) }
    match startPackager opts global .identity disk with
    | .error e => failed e
    | .ok (ctx, engine) =>
      let r : Run := ⟨"", "", ctx, engine⟩
      match inv.task with
      | .deps entry platform dev => runDeps r inv.json entry platform dev
      | .bundle b => runBundle r inv.json here b
      | .watch => runWatch r

/-- Run the program with its arguments, in the directory `here`, with its environment, over a
disk. -/
def runProgram (here : String) (env : String → Option String) (args : List String) (disk : Disk) : Outcome :=
  match parseArguments env args with
  | .error stop =>
    let (out, err, status) := stop.render env
    ⟨out, err, status, disk⟩
  | .ok inv =>
    let outcome := runInvocation here inv (disk.workingIn (Path.ofString here))
    { outcome with disk := outcome.disk.workingIn disk.workDir }

end CommandLine

end ModuleBundler
