import ModuleBundler.Engine.Packager
import ModuleBundler.Script.Pure
import ModuleBundler.Encoding.Base64

/-!
# The scripted interface: sessions

A project request runs its steps against one session: the packager's configuration and state,
what it was started from, and the serial number of the last bundle handed out per bundle key.
Files are laid out on the disk as text, as base64 bytes or as directories.
-/

namespace ModuleBundler

namespace Script

open EngineM

/-- A running project: the run's configuration and state, what it was started from, and the
serial number of the last bundle handed out for each bundle key. -/
structure Session where
  ctx : Context
  engine : Engine
  opts : PackagerOptions
  global : GlobalConfig
  transformer : Transformer
  served : List (String × Nat)

namespace Session

/-- Run an operation of the engine in the session. -/
def run {α : Type} (s : Session) (x : EngineM α) : Except Error α × Session :=
  let (r, e) := x.run s.ctx s.engine
  (r, { s with engine := e })

/-- Change the disk. -/
def withDisk (s : Session) (f : Disk → Disk) : Session :=
  { s with engine := { s.engine with disk := f s.engine.disk } }

end Session

/-- The bytes of a file given as text or as `{"b64": ...}`; none for `{"dir": true}`. -/
def fileContent (v : Json) : Except String (Option (List UInt8)) :=
  match v with
  | .str s => .ok (some s.toUTF8.toList)
  | .obj _ =>
    match v.field? "b64", v.field? "dir" with
    | some (.str b), _ =>
      match Base64.decode b with
      | .ok bytes => .ok (some bytes)
      | .error e => .error ("bad base64: " ++ e.message)
    | _, some (.bool true) => .ok none
    | _, _ => .error "invalid file content"
  | _ => .error "invalid file content"

/-- Write a file, creating the directories above it, or create a directory. -/
def putFile (disk : Disk) (p : Path) (content : Option (List UInt8)) (mtime : Option Nat) : Disk :=
  match content with
  | none => (disk.createDirAll p).toOption.getD disk
  | some bytes =>
    let disk := (disk.createDirAll (p.parent?.getD Path.empty)).toOption.getD disk
    let written := match mtime with
      | some m => disk.writeAt p bytes m
      | none => disk.writeFile p bytes
    written.toOption.getD disk

/-- The content a step writes: its `content` text or its `b64` bytes. -/
def stepContent (st : Json) : Except String (List UInt8) :=
  match st.field? "b64" with
  | some (.str b) =>
    match Base64.decode b with
    | .ok bytes => .ok bytes
    | .error e => .error ("bad base64: " ++ e.message)
  | _ => .ok (strOr st "content" "").toUTF8.toList

end Script

end ModuleBundler
