import ModuleBundler.Vfs.Ignore
import ModuleBundler.Disk.Basic

/-!
# The virtual file system

An in-memory mirror of the project roots. Each known directory lists its children's names;
each known file remembers its content and its size and modification time once they are first
read, until a change event replaces it. Paths below the roots are answered from the mirror;
paths below a detached root (a directory outside the roots that an entry file was found in)
are read straight from the disk; every other path is outside.

A change event is dropped when its path is a directory on disk, is ignored, lies outside the
roots, or has an extension that is not tracked (and is not a known directory).
-/

namespace ModuleBundler

/-- The kind of a change to a file. -/
inductive ChangeKind where
  | add
  | change
  | delete
  deriving DecidableEq, Repr, Inhabited

namespace ChangeKind

/-- The lowercase name. -/
def name : ChangeKind → String
  | .add => "add"
  | .change => "change"
  | .delete => "delete"

/-- Read a kind from its name. -/
def ofName? : String → Option ChangeKind
  | "add" => some .add
  | "change" => some .change
  | "delete" => some .delete
  | _ => none

end ChangeKind

/-- A change applied to the mirror. -/
structure FileChange where
  kind : ChangeKind
  path : Path
  deriving Inhabited

/-- The size and modification time of a file. -/
structure FileStat where
  size : Nat
  mtimeMs : Nat
  deriving Inhabited

/-- What the mirror remembers of a file. -/
structure FileNode where
  content : Option String
  stat : Option FileStat
  deriving Inhabited

/-- A node of the mirror. -/
inductive VfsNode where
  /-- A directory and the sorted names of its children. -/
  | dir (children : List String)
  | file (data : FileNode)
  deriving Inhabited

/-- Sorted insertion of a name into a sorted list of names. -/
def insertName (n : String) : List String → List String
  | [] => [n]
  | m :: rest => if n = m then m :: rest else if n < m then n :: m :: rest else m :: insertName n rest

/-- The mirror of the project roots. -/
structure Vfs where
  roots : List Path
  detached : List Path
  nodes : List (Path × VfsNode)
  ignore : IgnoreRules
  extensions : List String

namespace Vfs

/-- The node at a path. -/
def node? (v : Vfs) (p : Path) : Option VfsNode := (v.nodes.find? (·.1 = p)).map (·.2)

/-- Replace or add the node at a path. -/
def setNode (v : Vfs) (p : Path) (n : VfsNode) : Vfs :=
  if v.nodes.any (·.1 = p) then { v with nodes := v.nodes.map fun (q, x) => if q = p then (q, n) else (q, x) }
  else { v with nodes := v.nodes ++ [(p, n)] }

/-- Remove the node at a path, giving it back. -/
def takeNode (v : Vfs) (p : Path) : Option VfsNode × Vfs :=
  (v.node? p, { v with nodes := v.nodes.filter (·.1 != p) })

/-- The first root a path lies in. -/
def attachedRoot? (v : Vfs) (p : Path) : Option Path := v.roots.find? (p.startsWith ·)

/-- Whether a path lies in a detached root. -/
def isDetached (v : Vfs) (p : Path) : Bool := v.detached.any (p.startsWith ·)

/-- Register a directory outside the roots whose files are read from the disk. -/
def addDetachedRoot (v : Vfs) (root : Path) : Vfs :=
  let root := root.normalize
  if v.detached.contains root then v else { v with detached := v.detached ++ [root] }

/-- Record a file, and its name in every directory above it up to a known one or a root. -/
def insertFile (v : Vfs) (file : Path) : Vfs :=
  go (file.components.length + 1) file (v.setNode file (.file ⟨none, none⟩))
where
  go : Nat → Path → Vfs → Vfs
    | 0, _, v => v
    | fuel + 1, child, v =>
      match child.parent?, child.fileName? with
      | some parent, some name =>
        let isNew := (v.node? parent).isNone
        match v.node? parent with
        | some (.file _) => v
        | some (.dir cs) =>
          let v := v.setNode parent (.dir (insertName name cs))
          if !isNew || v.roots.contains parent then v else go fuel parent v
        | none =>
          let v := v.setNode parent (.dir [name])
          if !isNew || v.roots.contains parent then v else go fuel parent v
      | _, _ => v

/-- Forget a node, everything below it, and its name in its parent. -/
def removeNode (v : Vfs) (p : Path) : Vfs :=
  go (v.nodes.length + 1) p v
where
  go : Nat → Path → Vfs → Vfs
    | 0, _, v => v
    | fuel + 1, p, v =>
      let (old, v) := v.takeNode p
      let v := match old with
        | some (.dir children) => children.foldl (fun v name => go fuel (p.push name) v) v
        | _ => v
      match p.parent?, p.fileName? with
      | some parent, some name =>
        match v.node? parent with
        | some (.dir cs) => v.setNode parent (.dir (cs.filter (· != name)))
        | _ => v
      | _, _ => v

/-- Build the mirror from a finished crawl; files outside every root are dropped. -/
def build (disk : Disk) (roots : List Path) (files : List Path) (ignore : IgnoreRules)
    (extensions : List String) : Except VfsError Vfs := do
  let roots := roots.map Path.normalize
  for root in roots do
    if !disk.isDir root then throw (.rootMissing root)
  let v : Vfs := ⟨roots, [], [], ignore, extensions⟩
  let v := roots.foldl (fun v r => if (v.node? r).isSome then v else v.setNode r (.dir [])) v
  return files.foldl (fun v f =>
    let f := f.normalize
    if (v.attachedRoot? f).isNone then v else v.insertFile f) v

/-- Whether a path is a known file, or a file on disk in a detached root. -/
def fileExists (v : Vfs) (disk : Disk) (p : Path) : Bool :=
  let p := p.normalize
  if (v.attachedRoot? p).isSome then
    match v.node? p with
    | some (.file _) => true
    | _ => false
  else v.isDetached p && disk.isFile p

/-- Whether a path is a known directory, or a directory on disk in a detached root. -/
def dirExists (v : Vfs) (disk : Disk) (p : Path) : Bool :=
  let p := p.normalize
  if (v.attachedRoot? p).isSome then
    match v.node? p with
    | some (.dir _) => true
    | _ => false
  else v.isDetached p && disk.isDir p

/-- Read a file, remembering the content of a known file. -/
def readFile (v : Vfs) (disk : Disk) (p : Path) : Except VfsError String × Vfs :=
  let p := p.normalize
  if (v.attachedRoot? p).isNone then
    if !v.isDetached p then (.error (.notInRoots p), v)
    else if !disk.isFile p then (.error (.notFound p), v)
    else
      match disk.readLossy p with
      | .ok s => (.ok s, v)
      | .error e => (.error (.io p e), v)
  else
    match v.node? p with
    | some (.dir _) => (.error (.notAFile p), v)
    | none => (.error (.notFound p), v)
    | some (.file data) =>
      match data.content with
      | some s => (.ok s, v)
      | none =>
        match disk.readLossy p with
        | .ok s => (.ok s, v.setNode p (.file { data with content := some s }))
        | .error e => (.error (.io p e), v)

/-- The size and modification time of a file on disk. -/
def statFromDisk (disk : Disk) (p : Path) : Except VfsError FileStat :=
  match disk.status p with
  | .error .notFound => .error (.notFound p)
  | .error e => .error (.io p e)
  | .ok .dir => .error (.notAFile p)
  | .ok (.file bytes m) => .ok ⟨bytes.length, m⟩

/-- The size and modification time of a file, remembered for a known file. -/
def stat (v : Vfs) (disk : Disk) (p : Path) : Except VfsError FileStat × Vfs :=
  let p := p.normalize
  if (v.attachedRoot? p).isNone then
    if !v.isDetached p then (.error (.notInRoots p), v) else (statFromDisk disk p, v)
  else
    match v.node? p with
    | some (.dir _) => (.error (.notAFile p), v)
    | none => (.error (.notFound p), v)
    | some (.file data) =>
      match data.stat with
      | some s => (.ok s, v)
      | none =>
        match statFromDisk disk p with
        | .ok s => (.ok s, v.setNode p (.file { data with stat := some s }))
        | .error e => (.error e, v)

/-- The nearest file called `name` in a directory above `p`, looking no further than the roots
and detached roots reach. -/
def closest (v : Vfs) (disk : Disk) (p : Path) (name : String) : Option Path :=
  let p := p.normalize
  go (p.components.length + 1) p.parent?
where
  go : Nat → Option Path → Option Path
    | 0, _ => none
    | _, none => none
    | fuel + 1, some current =>
      let candidate := current.push name
      if v.fileExists disk candidate then some candidate
      else if (v.attachedRoot? current).isNone && !v.isDetached current then none
      else go fuel current.parent?

/-- Order paths component by component. -/
def sortPaths (ps : List Path) : List Path := Text.sortBy ps fun a b => a.cmp b != .gt

/-- The children of a known directory whose full paths match a pattern, by name. -/
def childrenMatching (v : Vfs) (dir : Path) (re : Regex) : Except VfsError (List Path) :=
  let dir := dir.normalize
  match v.node? dir with
  | some (.dir children) => .ok ((children.map dir.push).filter fun p => re.isMatch (IgnoreRules.slashed p.toString))
  | some (.file _) => .error (.notADirectory dir)
  | none => if (v.attachedRoot? dir).isNone then .error (.notInRoots dir) else .error (.notFound dir)

/-- Every known file, sorted. -/
def allFiles (v : Vfs) : List Path :=
  sortPaths (v.nodes.filterMap fun (p, n) =>
    match n with
    | .file _ => some p
    | .dir _ => none)

/-- Every known file whose path matches a pattern, sorted. -/
def matchFiles (v : Vfs) (re : Regex) : List Path :=
  v.allFiles.filter fun p => re.isMatch (IgnoreRules.slashed p.toString)

/-- Every known file below a known directory, sorted. -/
def filesUnder (v : Vfs) (dir : Path) : List Path :=
  let dir := dir.normalize
  match v.node? dir with
  | some (.dir _) => v.allFiles.filter fun p => p != dir && p.startsWith dir
  | _ => []

/-- Every known file with one of the extensions, sorted. -/
def findByExts (v : Vfs) (exts : List String) : List Path :=
  v.allFiles.filter fun p =>
    match p.extension? with
    | some e => exts.contains e
    | none => false

/-- Whether a path has a tracked extension. -/
def hasTrackedExtension (v : Vfs) (p : Path) : Bool :=
  match p.extension? with
  | some e => v.extensions.contains e
  | none => false

/-- Apply an event for `rel` below `root`: the change applied, or nothing when it is dropped. -/
def processChange (v : Vfs) (disk : Disk) (kind : ChangeKind) (root rel : Path) :
    Option FileChange × Vfs :=
  let path := (root.join rel).normalize
  if disk.isDir path then (none, v)
  else if v.ignore.isIgnored path then (none, v)
  else if (v.attachedRoot? path).isNone then (none, v)
  else
    let knownDir := match v.node? path with
      | some (.dir _) => true
      | _ => false
    if !knownDir && !v.hasTrackedExtension path then (none, v)
    else
      let v := if kind = .add then v else v.removeNode path
      let v := if kind = .delete then v else if disk.isFile path then v.insertFile path else v
      (some ⟨kind, path⟩, v)

end Vfs

end ModuleBundler
