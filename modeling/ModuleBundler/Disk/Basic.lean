import ModuleBundler.Text.Split
import ModuleBundler.Error
import ModuleBundler.Text.Utf8

/-!
# The disk

The files and directories the engine reads, as a finite map from absolute normal paths to
entries: a file has its bytes and its modification time in milliseconds, a directory has
nothing more. The root directory always exists. A relative path is taken from the disk's
working directory. Every operation answers the way the operating system does, including the
error it reports: a missing entry, a directory where a file is expected, a file where a
directory is expected.

Modification times: a file written when a project is set up has `setupMtime`; a file touched
at second `n` has `mtimeAt n`; every later write gives a fresh time, distinct from both.
-/

namespace ModuleBundler

/-- What a path holds on disk. -/
inductive DiskEntry where
  | file (bytes : List UInt8) (mtime : Nat)
  | dir
  deriving Inhabited, DecidableEq

/-- A disk: entries by absolute normal path, a clock for fresh modification times, and the
working directory that relative paths are taken from. -/
structure Disk where
  entries : List (Path × DiskEntry)
  clock : Nat
  workDir : Path
  deriving Inhabited

namespace Disk

/-- The modification time, in milliseconds, of a file touched at second `n` of the session. -/
def mtimeAt (n : Nat) : Nat := (1600000000 + n) * 1000

/-- The modification time of the files a project starts with. -/
def setupMtime : Nat := mtimeAt 0

/-- The root path. -/
def rootPath : Path := ⟨[.root]⟩

/-- A disk holding only the root directory, working in it. -/
def empty : Disk := ⟨[], 0, rootPath⟩

/-- The same disk working in another directory. -/
def workingIn (d : Disk) (dir : Path) : Disk := { d with workDir := dir }

/-- The absolute normal path a path stands for: a relative one is taken from the working
directory. -/
def locate (d : Disk) (p : Path) : Path := (d.workDir.join p).normalize

/-- The entry at a path, by exact match. -/
def find? (d : Disk) (p : Path) : Option DiskEntry :=
  if p = rootPath then some .dir else (d.entries.find? (·.1 = p)).map (·.2)

/-- The proper ancestors of a path, outermost first. -/
def ancestors (p : Path) : List Path :=
  ((List.range p.components.length).drop 1).map fun n => ⟨p.components.take n⟩

/-- One step of a lookup as the operating system takes it: from `cur`, which must be a
directory, through one piece of a written path. An empty piece or `.` stays, `..` goes up (the
root is its own parent), and a name goes down. -/
def stepInto (d : Disk) (cur : Path) (piece : String) : Except IoError Path :=
  match d.find? cur with
  | some .dir =>
    if piece = "" || piece = "." then .ok cur
    else if piece = ".." then .ok (cur.parent?.getD cur)
    else .ok (cur.push piece)
  | some (.file _ _) => .error .notADirectory
  | none => .error .notFound

/-- The absolute normal path a written path leads to, every step before the last taken on disk:
`a/../b` needs `a` to be a directory, and a trailing `/` needs the last entry to be one. -/
def resolveText (d : Disk) (text : String) : Except IoError Path :=
  let start := if text.startsWith "/" then rootPath else d.workDir
  (Text.splitOnChar text '/').foldlM d.stepInto start

/-- The pieces a path is written with. -/
def pathPieces (p : Path) : List String :=
  p.components.map fun
    | .root => ""
    | .current => "."
    | .parent => ".."
    | .name n => n

/-- What is at a path, or why nothing can be: a missing or non-directory entry on the way. -/
def status (d : Disk) (p : Path) : Except IoError DiskEntry :=
  let start := if p.isAbsolute then rootPath else d.workDir
  match (pathPieces p).foldlM d.stepInto start with
  | .error e => .error e
  | .ok q =>
    match d.find? q with
    | some e => .ok e
    | none => .error .notFound

/-- Whether a path is a file. -/
def isFile (d : Disk) (p : Path) : Bool :=
  match d.status p with
  | .ok (.file _ _) => true
  | _ => false

/-- Whether a path is a directory. -/
def isDir (d : Disk) (p : Path) : Bool :=
  match d.status p with
  | .ok .dir => true
  | _ => false

/-- The bytes of a file. -/
def readBytes (d : Disk) (p : Path) : Except IoError (List UInt8) :=
  match d.status p with
  | .ok (.file bytes _) => .ok bytes
  | .ok .dir => .error .isADirectory
  | .error e => .error e

/-- The text of a file, invalid UTF-8 replaced by U+FFFD. -/
def readLossy (d : Disk) (p : Path) : Except IoError String :=
  (d.readBytes p).map fun bytes => Utf8.decode ⟨bytes.toArray⟩

/-- The text of a file that must be valid UTF-8. -/
def readText (d : Disk) (p : Path) : Except IoError String :=
  match d.readBytes p with
  | .ok bytes =>
    match String.fromUTF8? ⟨bytes.toArray⟩ with
    | some s => .ok s
    | none => .error .invalidUtf8
  | .error e => .error e

/-- The modification time of a file. -/
def mtime? (d : Disk) (p : Path) : Option Nat :=
  match d.status p with
  | .ok (.file _ m) => some m
  | _ => none

/-- The names directly inside a directory, sorted. -/
def children (d : Disk) (dir : Path) : List String :=
  let dir := d.locate dir
  let names := d.entries.filterMap fun (p, _) =>
    if p.parent? = some dir then p.fileName? else none
  Text.sortBy names fun a b => decide (a ≤ b)

/-- Replace or add the entry at a path. -/
def put (d : Disk) (p : Path) (e : DiskEntry) : Disk :=
  if d.entries.any (·.1 = p) then
    { d with entries := d.entries.map fun (q, x) => if q = p then (q, e) else (q, x) }
  else { d with entries := d.entries ++ [(p, e)] }

/-- A fresh modification time, and the disk with its clock advanced. -/
def freshMtime (d : Disk) : Nat × Disk :=
  (1700000000000 + 1000 * d.clock, { d with clock := d.clock + 1 })

/-- Write a file with a given modification time; its directory must exist. The directory is
looked up as the operating system looks it up, and the path must end in a name. -/
def writeAt (d : Disk) (p : Path) (bytes : List UInt8) (mtime : Nat) : Except IoError Disk :=
  match p.components.getLast? with
  | some (.name n) =>
    let start := if p.isAbsolute then rootPath else d.workDir
    match (pathPieces ⟨p.components.dropLast⟩).foldlM d.stepInto start with
    | .error e => .error e
    | .ok dir =>
      match d.find? dir with
      | some .dir =>
        let q := dir.push n
        match d.find? q with
        | some .dir => .error .isADirectory
        | _ => .ok (d.put q (.file bytes mtime))
      | some (.file _ _) => .error .notADirectory
      | none => .error .notFound
  | _ => .error .isADirectory

/-- Write a file with a fresh modification time; its directory must exist. -/
def writeFile (d : Disk) (p : Path) (bytes : List UInt8) : Except IoError Disk :=
  let (m, d) := d.freshMtime
  d.writeAt p bytes m

/-- One step of creating a directory and those above it: from `cur`, which must be a directory,
through one piece of the path, making the directory a name stands for when it is missing. A file
where a directory should be fails, as `alreadyExists` when it is the last piece. -/
def createStep (last : Nat) (acc : Disk × Path) (ip : String × Nat) : Except IoError (Disk × Path) :=
  let (d, cur) := acc
  let (piece, i) := ip
  match d.find? cur with
  | some .dir =>
    if piece = "" || piece = "." then .ok (d, cur)
    else if piece = ".." then .ok (d, cur.parent?.getD cur)
    else
      let next := cur.push piece
      match d.find? next with
      | some .dir => .ok (d, next)
      | some (.file _ _) => if i = last then .error .alreadyExists else .error .notADirectory
      | none => .ok (d.put next .dir, next)
  | some (.file _ _) => .error .notADirectory
  | none => .error .notFound

/-- Create a directory and every missing directory on the way to it, taking the way as the
operating system does: `a/../b` makes `a` too. -/
def createDirAll (d : Disk) (p : Path) : Except IoError Disk :=
  let start := if p.isAbsolute then rootPath else d.workDir
  let pieces := pathPieces p
  (pieces.zipIdx.foldlM (createStep (pieces.length - 1)) (d, start)).map (·.1)

/-- Remove a path and everything below it. -/
def removeAll (d : Disk) (p : Path) : Disk :=
  let p := d.locate p
  { d with entries := d.entries.filter fun (q, _) => !q.startsWith p }

/-- Move an entry, and everything below it, to another path. -/
def rename (d : Disk) (src dst : Path) : Except IoError Disk :=
  let src := d.locate src
  let dst := d.locate dst
  match d.status src with
  | .error e => .error e
  | .ok srcEntry =>
    match srcEntry, d.find? dst with
    | .file _ _, some .dir => .error .isADirectory
    | .dir, some (.file _ _) => .error .notADirectory
    | _, _ =>
      match dst.parent? with
      | none => .error .isADirectory
      | some dir =>
        if !d.isDir dir then .error .notFound
        else
          let d := d.removeAll dst
          .ok { d with entries := d.entries.map fun (q, e) =>
            match q.stripPrefix? src with
            | some rest => (⟨dst.components ++ rest.components⟩, e)
            | none => (q, e) }

/-- Set the modification time of a file. -/
def touch (d : Disk) (p : Path) (mtime : Nat) : Disk :=
  let p := d.locate p
  match d.find? p with
  | some (.file bytes _) => d.put p (.file bytes mtime)
  | _ => d

/-- Every file below a directory, with its path written from the directory as given. -/
def filesUnder (d : Disk) (dir : Path) : List Path :=
  let located := d.locate dir
  d.entries.filterMap fun (q, e) =>
    match e with
    | .file _ _ =>
      if q.startsWith located && q != located then
        if dir.isAbsolute then some q else (q.stripPrefix? located).map dir.normalize.join
      else none
    | .dir => none

end Disk

end ModuleBundler
