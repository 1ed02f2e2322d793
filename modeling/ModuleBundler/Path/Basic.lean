import ModuleBundler.Text.Split

/-!
# Lexical paths

A path is a list of components: the root, the current directory (only ever first, and only in
a relative path written with a leading `./`), the parent directory, and plain names. Reading a
text splits it on `/`; empty pieces and inner `.` pieces carry no component, so `a//b/` and
`a/./b` are the same path as `a/b`. Two paths are equal, and are ordered, component by
component; the root sorts before `.`, `.` before `..`, and `..` before every name.

`normalize` drops `.` and folds `..` into the name before it; `startsWith` and `stripPrefix`
work on whole components. `stripPrefixText?` strips whole components too, but from a text, and
leaves the rest as it is written there.
-/

namespace ModuleBundler

/-- One step of a path. -/
inductive Component where
  /-- The leading `/` of an absolute path. -/
  | root
  /-- A leading `.` of a relative path. -/
  | current
  /-- A `..` step. -/
  | parent
  /-- A plain name: non-empty, without `/`, neither `.` nor `..`. -/
  | name (text : String)
  deriving DecidableEq, Repr, Inhabited

namespace Component

/-- The rank of a component's kind in the path order. -/
def rank : Component → Nat
  | .root => 0
  | .current => 1
  | .parent => 2
  | .name _ => 3

/-- Components compare by kind, and names by their text. -/
def cmp : Component → Component → Ordering
  | .name a, .name b => compare a b
  | a, b => compare a.rank b.rank

/-- The text a component stands for between two separators. -/
def text : Component → String
  | .root => "/"
  | .current => "."
  | .parent => ".."
  | .name s => s

/-- The component a piece between separators stands for. -/
def ofPiece (s : String) : Component :=
  if s = ".." then .parent else .name s

end Component

/-- A path, as the list of its components. -/
structure Path where
  components : List Component
  deriving DecidableEq, Repr, Inhabited

namespace Path

/-- The empty path, which prints as nothing. -/
def empty : Path := ⟨[]⟩

/-- The pieces of a text between `/` separators, empty pieces and `.` pieces left out. -/
def pieces (s : String) : List String :=
  (Text.splitOnChar s '/').filter fun p => p != "" && p != "."

/-- Whether the text starts with a `.` piece that a path keeps: `.` alone or `./`. -/
def leadsWithCurrent (s : String) : Bool :=
  s == "." || s.startsWith "./"

/-- Read a text as a path. -/
def ofString (s : String) : Path :=
  let named := (pieces s).map Component.ofPiece
  if s.startsWith "/" then ⟨.root :: named⟩
  else if leadsWithCurrent s then ⟨.current :: named⟩
  else ⟨named⟩

instance : Coe String Path := ⟨ofString⟩

/-- Whether the path starts at the root. -/
def isAbsolute (p : Path) : Bool :=
  match p.components with
  | .root :: _ => true
  | _ => false

/-- The path's text: the root as `/`, then the other components joined by `/`. -/
def toString (p : Path) : String :=
  match p.components with
  | .root :: rest => "/" ++ "/".intercalate (rest.map Component.text)
  | cs => "/".intercalate (cs.map Component.text)

instance : ToString Path := ⟨toString⟩

/-- Whether the path has no component at all. -/
def isEmpty (p : Path) : Bool := p.components.isEmpty

/-- Append a relative path; an absolute one replaces the base. A leading `.` of the appended
path is dropped unless the base is empty. -/
def join (base rel : Path) : Path :=
  if rel.isAbsolute then rel
  else if base.isEmpty then rel
  else ⟨base.components ++ rel.components.filter (· != .current)⟩

instance : Div Path := ⟨join⟩

/-- Append one name. -/
def push (base : Path) (name : String) : Path := base.join (ofString name)

/-- The path without its last component; none for the root or the empty path. -/
def parent? (p : Path) : Option Path :=
  match p.components.getLast? with
  | some .root => none
  | none => none
  | some _ => some ⟨p.components.dropLast⟩

/-- The parent, or the path itself where there is none. -/
def parentOrSelf (p : Path) : Path := p.parent?.getD p

/-- The last component when it is a name. -/
def fileName? (p : Path) : Option String :=
  match p.components.getLast? with
  | some (.name s) => some s
  | _ => none

/-- Where a name splits into stem and extension: at its last `.`, unless that dot is its first
character. -/
def splitExtension (name : String) : String × Option String :=
  let parts := Text.splitOnChar name '.'
  let stem := ".".intercalate parts.dropLast
  match parts.getLast? with
  | some ext => if parts.length < 2 || stem.isEmpty then (name, none) else (stem, some ext)
  | none => (name, none)

/-- The text after the last `.` of the file name. -/
def extension? (p : Path) : Option String :=
  p.fileName?.bind fun n => (splitExtension n).2

/-- The file name without its extension. -/
def fileStem? (p : Path) : Option String :=
  p.fileName?.map fun n => (splitExtension n).1

/-- The path with the extension of its file name removed; a path not ending in a name stays. -/
def withoutExtension (p : Path) : Path :=
  match p.fileStem? with
  | some stem => ⟨p.components.dropLast ++ [.name stem]⟩
  | none => p

/-- Whether the extension is the given text. -/
def hasExtension (p : Path) (ext : String) : Bool := p.extension? == some ext

/-- Whether `base` is a leading run of whole components of `p`. -/
def startsWith (p base : Path) : Bool := base.components.isPrefixOf p.components

/-- The components after `base`, when `base` leads `p`. -/
def stripPrefix? (p base : Path) : Option Path :=
  if p.startsWith base then some ⟨p.components.drop base.components.length⟩ else none

/-- Compare component by component; a path before every longer path it leads. -/
def cmp (a b : Path) : Ordering :=
  go a.components b.components
where
  go : List Component → List Component → Ordering
    | [], [] => .eq
    | [], _ :: _ => .lt
    | _ :: _, [] => .gt
    | x :: xs, y :: ys =>
      match x.cmp y with
      | .eq => go xs ys
      | o => o

instance : Ord Path := ⟨cmp⟩

/-- Whether `a` sorts strictly before `b`. -/
def lt (a b : Path) : Bool := a.cmp b == .lt

/-- Lexical normal form: `.` steps vanish, `..` removes the step before it where there is
one (never the root), and an empty result is `.`. -/
def normalize (p : Path) : Path :=
  let out := p.components.foldl step []
  if out.isEmpty then ⟨[.current]⟩ else ⟨out⟩
where
  /-- One component onto the reversed-free list built so far. -/
  step (acc : List Component) : Component → List Component
    | .current => acc
    | .parent =>
      match acc.getLast? with
      | some .root => acc ++ [.parent]
      | none => [.parent]
      | some _ => acc.dropLast
    | .root => [.root]
    | c => acc ++ [c]

/-- How the pieces of a text between `/` separators read as components: the leading empty piece
of an absolute path is the root and a leading `.` of a relative one the current directory; every
other empty or `.` piece stands for nothing. -/
def pieceComponents (s : String) : List (String × Option Component) :=
  let absolute := s.startsWith "/"
  (Text.splitOnChar s '/').zipIdx.map fun (p, i) =>
    if i = 0 then
      (p, if absolute then some .root else if p = "" then none
        else if p = "." then some .current else some (Component.ofPiece p))
    else (p, if p = "" || p = "." then none else some (Component.ofPiece p))

/-- The text of `s` after the whole components of `base`, as it is written there: the separators
and `.` pieces at its two ends dropped, those inside kept; none when `base` does not lead `s`. -/
def stripPrefixText? (s : String) (base : Path) : Option String :=
  go base.components (pieceComponents s)
where
  /-- Match the components of `base` against the pieces. -/
  go : List Component → List (String × Option Component) → Option String
    | [], rest =>
      let inner := ((rest.dropWhile (·.2.isNone)).reverse.dropWhile (·.2.isNone)).reverse
      some ("/".intercalate (inner.map (·.1)))
    | _ :: _, [] => none
    | b :: bs, (_, none) :: rest => go (b :: bs) rest
    | b :: bs, (_, some c) :: rest => if b = c then go bs rest else none

/-- Whether `p` is `root` or lies under it. -/
def isDescendant (root p : Path) : Bool := p.startsWith root

/-- `p` below `root`, as its names joined by `/`. -/
def relativeSlash? (root p : Path) : Option String :=
  (p.stripPrefix? root).map fun rest => "/".intercalate (rest.components.map Component.text)

end Path

/-- Append a piece to the text of a path, adding a separator where one is missing; an absolute
piece replaces the text. -/
def joinText (base piece : String) : String :=
  if piece.startsWith "/" then piece
  else if base.isEmpty || base.endsWith "/" then base ++ piece
  else base ++ "/" ++ piece

/-- The text of the directory above a written path: its last component dropped, with the
separators and `.` pieces around it; `/` above a top-level name. -/
def parentText (text : String) : String :=
  let trim (ps : List String) : List String :=
    match ps with
    | [] => []
    | first :: rest => first :: (rest.reverse.dropWhile (fun p => p = "" || p = ".")).reverse
  let kept := trim (trim (Text.splitOnChar text '/')).dropLast
  match kept with
  | [""] => "/"
  | _ => "/".intercalate kept

end ModuleBundler
