import ModuleBundler.CommandLine.Run
import ModuleBundler.Script.Session
import ModuleBundler.Json.Parse

/-!
# The program

`haste [OPTIONS] <COMMAND>` run over a snapshot of a workspace: standard input holds one JSON
object that maps paths, relative to the working directory, to their contents (text, or
`{"b64": ...}` for bytes, or `{"dir": true}` for a directory). The program's standard output
and standard error are printed as they are, and its status is the exit status; files the run
writes stay in the snapshot.
-/

open ModuleBundler

/-- All of a stream, line by line. -/
partial def readStream (stream : IO.FS.Stream) (acc : String) : IO String := do
  let line ← stream.getLine
  if line.isEmpty then return acc else readStream stream (acc ++ line)

/-- The disk holding a snapshot under a directory. -/
def snapshotDisk (dir : Path) (snapshot : Json) : Except String Disk :=
  ((snapshot.obj?).getD []).foldlM (fun d (k, v) => do
    let content ← Script.fileContent v
    let path := Path.ofString k
    return Script.putFile d (if path.isAbsolute then path else dir.join path) content (some Disk.setupMtime))
    (match Disk.empty.createDirAll dir with
     | .ok d => d
     | .error _ => Disk.empty)

/-- Run the program over the snapshot on standard input. -/
def main (args : List String) : IO UInt32 := do
  let here := (← IO.currentDir).toString
  let input ← readStream (← IO.getStdin) ""
  let snapshot := if input.toList.all Json.isBlank then Except.ok (Json.obj []) else Json.parse input
  match snapshot.bind (snapshotDisk (Path.ofString here)) with
  | .error m =>
    IO.eprintln ("error: unreadable workspace snapshot: " ++ m)
    return 2
  | .ok disk =>
    let cacheDir ← IO.getEnv "HASTE_CACHE_DIR"
    let env (name : String) : Option String := if name = "HASTE_CACHE_DIR" then cacheDir else none
    let outcome := CommandLine.runProgram here env args disk
    IO.print outcome.stdout
    IO.eprint outcome.stderr
    return outcome.status.toUInt32
