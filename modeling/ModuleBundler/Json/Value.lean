import ModuleBundler.Number.Binary

/-!
# JSON values

The values that manifests, configuration files, source maps, cache files and the scripted
interface exchange. A number is a natural number, a negative integer or a double; an object is
its list of fields in the order they are written. Objects read from text, and the map-like
objects the packager builds, keep their keys sorted and unique (`Json.sortedObject`); records
written field by field keep their declaration order.
-/

namespace ModuleBundler

/-- A JSON number as it was read or built. -/
inductive JsonNumber where
  /-- A natural number. -/
  | nat (n : Nat)
  /-- A negative integer. -/
  | negative (n : Int)
  /-- A double. -/
  | double (x : Double)
  deriving DecidableEq, Repr

/-- A JSON value. -/
inductive Json where
  | null
  | bool (b : Bool)
  | num (n : JsonNumber)
  | str (s : String)
  | arr (items : List Json)
  | obj (fields : List (String × Json))
  deriving Repr, Inhabited

namespace Json

/-- A natural number. -/
def nat (n : Nat) : Json := .num (.nat n)

/-- An integer. -/
def int (n : Int) : Json := if n < 0 then .num (.negative n) else .num (.nat n.toNat)

/-- A double; infinities and not-a-number are null. -/
def double (x : Double) : Json := if x.isFinite then .num (.double x) else .null

/-- A single-precision value, widened to a double. -/
def single (x : Single) : Json := double (BinaryFloat.convert x)

/-- A value or null. -/
def opt {α : Type} (f : α → Json) : Option α → Json
  | some a => f a
  | none => .null

/-- A string or null. -/
def optStr : Option String → Json := opt .str

/-- A list of strings. -/
def strs (xs : List String) : Json := .arr (xs.map .str)

/-- Insert a field into fields sorted by key, replacing a field of the same key. -/
def insertSorted (k : String) (v : Json) : List (String × Json) → List (String × Json)
  | [] => [(k, v)]
  | (k', v') :: rest =>
    if k = k' then (k, v) :: rest
    else if k < k' then (k, v) :: (k', v') :: rest
    else (k', v') :: insertSorted k v rest

/-- An object with its keys sorted; of two fields with one key the later one stays. -/
def sortedObject (fields : List (String × Json)) : Json :=
  .obj (fields.foldl (fun acc (k, v) => insertSorted k v acc) [])

/-- The value of a field of an object. -/
def field? (j : Json) (key : String) : Option Json :=
  match j with
  | .obj fields => (fields.find? (·.1 == key)).map (·.2)
  | _ => none

/-- A field's value, null when absent. -/
def get (j : Json) (key : String) : Json := (j.field? key).getD .null

/-- The text of a string value. -/
def str? : Json → Option String
  | .str s => some s
  | _ => none

/-- The items of an array value. -/
def arr? : Json → Option (List Json)
  | .arr xs => some xs
  | _ => none

/-- The fields of an object value. -/
def obj? : Json → Option (List (String × Json))
  | .obj fs => some fs
  | _ => none

/-- The truth value of a boolean value. -/
def bool? : Json → Option Bool
  | .bool b => some b
  | _ => none

/-- The number of a natural-number value. -/
def nat? : Json → Option Nat
  | .num (.nat n) => some n
  | _ => none

/-- Whether the value is null. -/
def isNull : Json → Bool
  | .null => true
  | _ => false

/-- Replace or add a field of an object; other values are left alone. -/
def setField (j : Json) (key : String) (v : Json) : Json :=
  match j with
  | .obj fields =>
    if fields.any (·.1 == key) then .obj (fields.map fun (k, x) => if k == key then (k, v) else (k, x))
    else .obj (fields ++ [(key, v)])
  | other => other

/-- Remove a field of an object. -/
def eraseField (j : Json) (key : String) : Json :=
  match j with
  | .obj fields => .obj (fields.filter (·.1 != key))
  | other => other

end Json

end ModuleBundler
