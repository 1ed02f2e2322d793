import ModuleBundler.Regex.Syntax

/-!
# Limits on patterns

A pattern is refused when its tree is nested too deeply or when the automaton built from it
would be too large.

Nesting: every repetition, group, concatenation and alternation puts its parts one level
deeper, and no part may lie more than `nestLimit` levels down.

Size: the automaton has one state per character, class, assertion and empty step, two per group
(its start and its end), a split state per alternation and per optional or repeated copy, and
the accepting state; the whole pattern is group 0. A counted repetition is built as that many
copies of its body. The size counts 32 bytes a state, 8 bytes a class range, 4 bytes a split
target, 16 bytes a group number, and a group name's bytes and 4 more; it may not pass
`sizeLimit`. `Node.cost` follows the building step by step, so the count is exact without
building anything.
-/

namespace ModuleBundler

namespace Regex

/-- The most bytes an automaton may take. -/
def sizeLimit : Nat := 10 * 1048576

namespace Node

mutual

/-- The depth of the deepest part, the node itself at depth 0. -/
def height : Node → Nat
  | .rep b .. => b.height + 1
  | .capture _ _ b => b.height + 1
  | .concat xs => heightAll xs + 1
  | .alt xs => heightAll xs + 1
  | _ => 0

/-- The greatest height of the nodes of a list. -/
def heightAll : List Node → Nat
  | [] => 0
  | x :: xs => max x.height (heightAll xs)

end

mutual

/-- Whether the node matches the empty text somewhere. -/
def matchesEmpty : Node → Bool
  | .empty => true
  | .char _ => false
  | .cls _ => false
  | .look _ => true
  | .rep b min _ _ => min = 0 || b.matchesEmpty
  | .capture _ _ b => b.matchesEmpty
  | .concat xs => allMatchEmpty xs
  | .alt xs => anyMatchesEmpty xs

/-- Whether every node of a list matches the empty text. -/
def allMatchEmpty : List Node → Bool
  | [] => true
  | x :: xs => x.matchesEmpty && allMatchEmpty xs

/-- Whether some node of a list matches the empty text. -/
def anyMatchesEmpty : List Node → Bool
  | [] => false
  | x :: xs => x.matchesEmpty || anyMatchesEmpty xs

end

end Node

/-- What building a node adds: its states, the bytes its lists take beyond the states, and
whether its last state is a split, so that joining it to what follows adds a split target. -/
structure Cost where
  states : Nat
  extra : Nat
  endsInSplit : Bool
  deriving Repr

namespace Cost

/-- One state with nothing more. -/
def single : Cost := ⟨1, 0, false⟩

/-- The bytes of joining the end of a part to what follows. -/
def link (c : Cost) : Nat := if c.endsInSplit then 4 else 0

/-- `n` copies one after another; none at all is an empty step. -/
def times (c : Cost) (n : Nat) : Cost :=
  if n = 0 then single else ⟨n * c.states, n * c.extra + (n - 1) * c.link, c.endsInSplit⟩

/-- A repetition of a body of cost `c`, which matches the empty text when `empty` says so. -/
def repeated (c : Cost) (empty : Bool) (min : Nat) (max : Option Nat) : Cost :=
  match max with
  | none =>
    if min = 0 then
      if !empty then ⟨c.states + 1, c.extra + 4 + c.link, true⟩
      -- built as one-or-more, made optional
      else ⟨c.states + 3, c.extra + c.link + 16, false⟩
    else if min = 1 then ⟨c.states + 1, c.extra + c.link + 4, true⟩
    else
      let p := c.times (min - 1)
      ⟨p.states + c.states + 1, p.extra + p.link + c.extra + c.link + 4, true⟩
  | some m =>
    if min = 0 ∧ m = 1 then ⟨c.states + 2, c.extra + 8 + c.link, false⟩
    else if min = m then c.times min
    else
      let p := c.times min
      let k := m - min
      ⟨p.states + 1 + k * (1 + c.states),
        p.extra + p.link + (k - 1) * c.link + 8 * k + k * c.extra + c.link, false⟩

end Cost

namespace Node

mutual

/-- What building a node adds. -/
def cost : Node → Cost
  | .empty => Cost.single
  | .char _ => Cost.single
  | .cls rs => ⟨1, 8 * rs.length, false⟩
  | .look _ => Cost.single
  | .capture _ _ b =>
    let c := b.cost
    ⟨c.states + 2, c.extra + c.link, false⟩
  | .concat xs => costSeq xs
  | .alt xs =>
    let (s, e, k) := costBranches xs
    ⟨s + 2, e + 4 * k, false⟩
  | .rep b min max _ => b.cost.repeated b.matchesEmpty min max

/-- What building a sequence adds, each part joined to the next. -/
def costSeq : List Node → Cost
  | [] => Cost.single
  | [x] => x.cost
  | x :: xs =>
    let c := x.cost
    let r := costSeq xs
    ⟨c.states + r.states, c.extra + c.link + r.extra, r.endsInSplit⟩

/-- The states and bytes of the branches of an alternation, each joined to the common end,
and their number. -/
def costBranches : List Node → Nat × Nat × Nat
  | [] => (0, 0, 0)
  | x :: xs =>
    let c := x.cost
    let (s, e, k) := costBranches xs
    (c.states + s, c.extra + c.link + e, k + 1)

end

mutual

/-- The numbered groups of a node, with their names. -/
def groups : Node → List (Nat × Option String)
  | .rep b .. => b.groups
  | .capture i name b => (i, name) :: b.groups
  | .concat xs => groupsAll xs
  | .alt xs => groupsAll xs
  | _ => []

/-- The numbered groups of the nodes of a list. -/
def groupsAll : List Node → List (Nat × Option String)
  | [] => []
  | x :: xs => x.groups ++ groupsAll xs

end

/-- The bytes of the automaton of a whole pattern: the pattern as group 0, then the accepting
state. -/
def automatonSize (node : Node) : Nat :=
  let c := node.cost
  let states := c.states + 3
  let gs := node.groups
  let count := (gs.foldl (fun m (i, _) => max m i) 0) + 1
  let names := (gs.filterMap (fun (i, name) => name.map (i, ·))).foldl
    (fun (acc : List (Nat × String)) (i, n) => if acc.any (·.1 = i) then acc else acc ++ [(i, n)]) []
  32 * states + 16 * count + c.extra + c.link +
    (names.map fun (_, n) => n.utf8ByteSize + 4).foldl (· + ·) 0

end Node

/-- Refuse a tree nested too deeply or too large to build. -/
def checkLimits (node : Node) : Except SyntaxError Unit :=
  if node.height > nestLimit then .error .tooMuchNesting
  else if node.automatonSize > sizeLimit then .error .sizeLimit
  else .ok ()

end Regex

end ModuleBundler
