import ModuleBundler.Json.Decode
import ModuleBundler.Disk.Basic

/-!
# The scripted interface: shared pieces

Requests and answers are JSON. A request names a workspace directory for the files it creates;
relative paths in a request are taken inside it. Errors are answered as records: the case of the
error, its kind, its text and its client payload; a request the interface cannot read is
answered as a `BadInput` record.
-/

namespace ModuleBundler

namespace Script

/-- Where a request's files live: a base directory and the workspace inside it. -/
structure Workspace where
  base : Path
  root : Path
  deriving Inhabited

namespace Workspace

/-- The workspace `w` inside the base directory `b`. -/
def ofBase (b : Path) : Workspace := ⟨b, b.push "w"⟩

/-- A path of a request: relative ones are taken inside the workspace. -/
def resolve (w : Workspace) (p : String) : Path :=
  let path := Path.ofString p
  if path.isAbsolute then path else w.root.join path

/-- A path of a request as text: a relative one is joined onto the workspace as written. -/
def rawJoin (w : Workspace) (p : String) : String :=
  if p.startsWith "/" then p else joinText w.root.toString p

/-- A disk holding the empty workspace. -/
def freshDisk (w : Workspace) : Disk :=
  match Disk.empty.createDirAll w.root with
  | .ok d => d
  | .error _ => Disk.empty

end Workspace

/-- A request that could not be read. -/
def badInput (message : String) : Json :=
  .obj [("error", .str "BadInput"), ("message", .str message)]

/-- An error as a record. Configuration parse errors and pattern errors carry the path or the
pattern instead of the message, which quotes a third-party parser. -/
def errorJson (e : Error) : Json :=
  match e with
  | .configParse p _ => .obj [("error", .str "ConfigParse"), ("kind", .str e.kind), ("path", .str p)]
  | .pattern p _ => .obj [("error", .str "Pattern"), ("kind", .str e.kind), ("pattern", .str p)]
  | _ =>
    let pl := e.payload
    .obj [("error", .str e.variant), ("kind", .str e.kind), ("message", .str e.message),
      ("payload", .obj [("type", .str pl.kind), ("description", .str pl.description),
        ("filename", Json.optStr pl.filename), ("lineNumber", Json.opt Json.nat pl.lineNumber)])]

/-- A string field, or a default. -/
def strOr (j : Json) (key default : String) : String :=
  match j.field? key with
  | some (.str s) => s
  | _ => default

/-- A boolean field, or a default. -/
def boolOr (j : Json) (key : String) (default : Bool) : Bool :=
  match j.field? key with
  | some (.bool b) => b
  | _ => default

/-- A list-of-strings field, or a default. -/
def strsOr (j : Json) (key : String) (default : List String) : List String :=
  match j.field? key with
  | some (.arr xs) => xs.filterMap Json.str?
  | _ => default

/-- A string field that may be absent or null. -/
def optStr (j : Json) (key : String) : Option String :=
  match j.field? key with
  | some (.str s) => some s
  | _ => none

/-- Either the answer or the error record. -/
def answerOr (r : Except Error Json) : Json :=
  match r with
  | .ok j => j
  | .error e => errorJson e

end Script

end ModuleBundler
