import ModuleBundler.Json.Decode
import ModuleBundler.Hash.Blake3

/-!
# The content memo

Values computed from files (declared dependencies, transformed code) are kept as JSON under a
path and a field name. Every path remembers the modification time its file had when a value
was stored; storing a value after the file changed drops the values stored before. A memo may
be persisted to a file named after a version key, and loaded back keeping only the paths whose
files still have the remembered modification time.
-/

namespace ModuleBundler

/-- The values stored for one path, and the modification time they were computed at. -/
structure CacheEntry where
  mtime : Option Nat
  fields : List (String × Json)
  deriving Inhabited

/-- The memo: entries by path, the version key, and the file it persists to. -/
structure ContentCache where
  entries : List (Path × CacheEntry)
  version : String
  file : Option Path
  deriving Inhabited

namespace ContentCache

/-- An empty memo kept in memory only. -/
def inMemory : ContentCache := ⟨[], "", none⟩

/-- The value stored under a path and field. -/
def lookup (c : ContentCache) (path : Path) (field : String) : Option Json :=
  (c.entries.find? (·.1 = path)).bind fun (_, e) => e.fields.lookup field

/-- Replace or add a field's value. -/
def setField (fields : List (String × Json)) (field : String) (v : Json) : List (String × Json) :=
  if fields.any (·.1 = field) then fields.map fun (k, x) => if k = field then (k, v) else (k, x)
  else fields ++ [(field, v)]

/-- Store a value computed when the file had modification time `mtime`; a path whose remembered
time differs loses its other values first. -/
def store (c : ContentCache) (path : Path) (field : String) (value : Json) (mtime : Option Nat) :
    ContentCache :=
  let entry := ((c.entries.find? (·.1 = path)).map (·.2)).getD ⟨none, []⟩
  let entry := if entry.mtime = mtime then entry else ⟨mtime, []⟩
  let entry := { entry with fields := setField entry.fields field value }
  if c.entries.any (·.1 = path) then
    { c with entries := c.entries.map fun (p, e) => if p = path then (p, entry) else (p, e) }
  else { c with entries := c.entries ++ [(path, entry)] }

/-- Store a value's serialised form, when the value has one; a value that does not serialise
leaves the memo as it was. -/
def storeEncoded (c : ContentCache) (path : Path) (field : String) (value? : Option Json)
    (mtime : Option Nat) : ContentCache :=
  match value? with
  | some value => c.store path field value mtime
  | none => c

/-- Whether a value is stored under a path and field. -/
def contains (c : ContentCache) (path : Path) (field : String) : Bool := (c.lookup path field).isSome

/-- Drop every value of a path; whether there was an entry for it. -/
def invalidate (c : ContentCache) (path : Path) : Bool × ContentCache :=
  (c.entries.any (·.1 = path), { c with entries := c.entries.filter (·.1 != path) })

/-- Drop everything. -/
def clear (c : ContentCache) : ContentCache := { c with entries := [] }

/-- The number of paths with an entry. -/
def len (c : ContentCache) : Nat := c.entries.length

/-- The parts a memo's namespace is named by: the version, the roots and the transformer's
modification time (zero when there is no transformer file). -/
def versionParts (version : String) (roots : List String) (transformerMtime : Option Nat) :
    List String :=
  version :: roots ++ [toString (transformerMtime.getD 0)]

/-- The key naming a memo's namespace: the digest of its parts. -/
def versionKey (version : String) (roots : List String) (transformerMtime : Option Nat) : String :=
  Blake3.keyOf (versionParts version roots transformerMtime)

/-- The file a memo with version key `key` persists to, inside `dir`. -/
def fileFor (dir : Path) (key : String) : Path :=
  dir.push ("haste-cache-" ++ String.ofList (key.toList.take 16) ++ ".json")

/-- The persisted form: the version, and each path's modification time and values. -/
def toJson (c : ContentCache) : Json :=
  .obj [("version", .str c.version),
    ("entries", .obj (c.entries.map fun (p, e) =>
      (p.toString, .obj [("mtime", Json.opt Json.nat e.mtime), ("fields", .obj e.fields)])))]

/-- Read one persisted entry. -/
def entryOfJson (j : Json) : Except String CacheEntry := do
  let mtime ← Json.optField j "mtime" Json.toU64
  let fields ← Json.reqField j "fields" Json.toFields
  return ⟨mtime, fields⟩

/-- Read a persisted memo: its version and entries. -/
def persistedOfJson (j : Json) : Except String (String × List (Path × CacheEntry)) := do
  let version ← Json.reqField j "version" Json.toStr
  let entries ← Json.reqField j "entries" Json.toFields
  let entries ← entries.mapM fun (k, v) => do return (Path.ofString k, ← entryOfJson v)
  return (version, entries)

end ContentCache

end ModuleBundler
