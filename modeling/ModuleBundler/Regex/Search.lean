import ModuleBundler.Regex.Program
import ModuleBundler.Regex.Limits

/-!
# Searching with a regular expression

Whether a pattern matches somewhere is a question about the set of places it can reach: from
every place of the text at once, each part of the tree takes the set of places it may start at
to the set of places it may end at, and the pattern matches when that last set is not empty. A
repetition applies its body the least number of times and then adds what further copies reach,
stopping as soon as nothing changes, so that large counts cost only as much as the text is long.

Finding the match itself, for replacing, runs a program as a set of threads over the text, one
step per character, all threads advancing in lockstep. Threads are kept in priority order, and a thread reaching a state that a
higher-priority thread already holds at the same position is dropped, so each position holds
each state at most once. When a thread accepts, the threads below it are dropped; the match
reported is the one of the highest-priority thread that accepts last. New threads start at
every position until a match is found, so the match found is the leftmost one, and among the
leftmost the one a backtracking engine would take first.

`Regex.replaceAll` replaces every match from left to right; an empty match right where the
previous match ended is skipped.
-/

namespace ModuleBundler

namespace Regex

/-- Whether a character is an ASCII word character. -/
def isWordChar (c : Char) : Bool := c.isAlphanum || c == '_'

/-- Whether a code point lies in a class. -/
def classHas (ranges : List (Nat × Nat)) (negated : Bool) (c : Char) : Bool :=
  (ranges.any fun (lo, hi) => lo ≤ c.toNat && c.toNat ≤ hi) != negated

/-- Whether an assertion holds between the characters before and at `pos`. -/
def holds (a : Assertion) (text : Array Char) (pos : Nat) : Bool :=
  let before := if pos = 0 then none else text[pos - 1]?
  let after := text[pos]?
  let wordBefore := (before.map isWordChar).getD false
  let wordAfter := (after.map isWordChar).getD false
  match a with
  | .startText => pos = 0
  | .endText => pos = text.size
  | .startLine => pos = 0 || before == some '\n'
  | .endLine => pos = text.size || after == some '\n'
  | .startLineCRLF => pos = 0 || before == some '\n' || (before == some '\r' && after != some '\n')
  | .endLineCRLF => pos = text.size || after == some '\r' || (after == some '\n' && before != some '\r')
  | .wordBoundary => wordBefore != wordAfter
  | .notWordBoundary => wordBefore == wordAfter
  | .wordStart => !wordBefore && wordAfter
  | .wordEnd => wordBefore && !wordAfter
  | .wordStartHalf => !wordBefore
  | .wordEndHalf => !wordAfter

/-- A thread: its instruction and its capture slots. -/
structure Thread where
  pc : Nat
  caps : Array (Option Nat)

/-- The threads at one position, in priority order, and the states already held there. -/
structure ThreadSet where
  threads : Array Thread
  seen : Array Bool

/-- No threads over a program of `size` instructions. -/
def ThreadSet.empty (size : Nat) : ThreadSet := ⟨#[], Array.replicate size false⟩

/-- Add a thread at `pos` and every state it reaches without reading, depth first so that the
preferred branch of a split comes first. -/
def addThread (prog : Program) (text : Array Char) (pos : Nat) (set : ThreadSet) (pc : Nat)
    (caps : Array (Option Nat)) : ThreadSet :=
  go (3 * prog.insts.size + 3) [(pc, caps)] set
where
  go : Nat → List (Nat × Array (Option Nat)) → ThreadSet → ThreadSet
    | 0, _, set => set
    | _, [], set => set
    | fuel + 1, (pc, caps) :: stack, set =>
      if set.seen.getD pc true then go fuel stack set
      else
        let set := { set with seen := set.seen.setIfInBounds pc true }
        match prog.insts[pc]? with
        | some (.jump n) => go fuel ((n, caps) :: stack) set
        | some (.split a b) => go fuel ((a, caps) :: (b, caps) :: stack) set
        | some (.save s n) => go fuel ((n, caps.setIfInBounds s (some pos)) :: stack) set
        | some (.check a n) =>
          if holds a text pos then go fuel ((n, caps) :: stack) set else go fuel stack set
        | some _ => go fuel stack { set with threads := set.threads.push ⟨pc, caps⟩ }
        | none => go fuel stack set

/-- Advance every thread over the character at `pos`, in priority order; an accepting thread
records the match and drops the threads after it. -/
def step (prog : Program) (text : Array Char) (pos : Nat) (threads : List Thread)
    (next : ThreadSet) (best : Option (Array (Option Nat))) :
    ThreadSet × Option (Array (Option Nat)) :=
  match threads with
  | [] => (next, best)
  | t :: rest =>
    match prog.insts[t.pc]? with
    | some .accept => (next, some (t.caps.setIfInBounds 1 (some pos)))
    | some (.cls rs neg n) =>
      match text[pos]? with
      | some c =>
        if classHas rs neg c then step prog text pos rest (addThread prog text (pos + 1) next n t.caps) best
        else step prog text pos rest next best
      | none => step prog text pos rest next best
    | _ => step prog text pos rest next best

/-- Run from `pos` on with the current threads; `fuel` bounds the positions left. -/
def run (prog : Program) (text : Array Char) (fuel pos : Nat) (current : ThreadSet)
    (best : Option (Array (Option Nat))) : Option (Array (Option Nat)) :=
  match fuel with
  | 0 => best
  | fuel + 1 =>
    let current :=
      if best.isNone then
        addThread prog text pos current prog.entry
          ((Array.replicate prog.slots none).setIfInBounds 0 (some pos))
      else current
    if current.threads.isEmpty ∧ best.isSome then best
    else
      let (next, best) := step prog text pos current.threads.toList (ThreadSet.empty prog.insts.size) best
      if pos ≥ text.size then best
      else run prog text fuel (pos + 1) next best

/-- The capture slots of the first match starting at or after `start`. -/
def Program.searchFrom (prog : Program) (text : Array Char) (start : Nat) : Option (Array (Option Nat)) :=
  run prog text (text.size - start + 2) start (ThreadSet.empty prog.insts.size) none


/-- Whether a code point lies in sorted ranges. -/
def inClass (ranges : List (Nat × Nat)) (c : Char) : Bool :=
  ranges.any fun (lo, hi) => lo ≤ c.toNat && c.toNat ≤ hi

/-- The places after one character from the places of `s` whose character passes `test`; a
set of places is a number whose bit `p` stands for place `p`. -/
def stepChar (text : Array Char) (test : Char → Bool) (s : Nat) : Nat :=
  (List.range text.size).foldl (fun acc p =>
    match text[p]? with
    | some c => if s.testBit p && test c then acc ||| (1 <<< (p + 1)) else acc
    | none => acc) 0

/-- The places of `s` where an assertion holds. -/
def keepWhere (text : Array Char) (a : Assertion) (s : Nat) : Nat :=
  (List.range (text.size + 1)).foldl (fun acc p =>
    if s.testBit p && holds a text p then acc ||| (1 <<< p) else acc) 0

/-- Apply `f` `k` times, stopping early once the set is empty or no longer changes. -/
def applyTimes (f : Nat → Nat) : Nat → Nat → Nat
  | 0, s => s
  | k + 1, s =>
    let t := f s
    if t = s ∨ t = 0 then t else applyTimes f k t

/-- Add to `u` what `f` reaches from it, up to `k` times, stopping once nothing is added. -/
def widen (f : Nat → Nat) : Nat → Nat → Nat
  | 0, u => u
  | k + 1, u =>
    let v := u ||| f u
    if v = u then u else widen f k v

mutual

/-- The places a node may end at, starting from the places of `s`. -/
def reach (text : Array Char) : Node → Nat → Nat
  | .empty, s => s
  | .char c, s => stepChar text (· == c) s
  | .cls rs, s => stepChar text (inClass rs) s
  | .look a, s => keepWhere text a s
  | .capture _ _ b, s => reach text b s
  | .concat xs, s => reachSeq text xs s
  | .alt xs, s => reachAny text xs s
  | .rep b min max _, s =>
    let base := applyTimes (fun t => reach text b t) min s
    match max with
    | none => widen (fun t => reach text b t) (text.size + 2) base
    | some m => widen (fun t => reach text b t) (m - min) base

/-- The places a sequence may end at. -/
def reachSeq (text : Array Char) : List Node → Nat → Nat
  | [], s => s
  | x :: xs, s => reachSeq text xs (reach text x s)

/-- The places some branch may end at. -/
def reachAny (text : Array Char) : List Node → Nat → Nat
  | [], _ => 0
  | x :: xs, s => reach text x s ||| reachAny text xs s

end

end Regex

/-- A compiled regular expression: its tree, its number of groups and its text. -/
structure Regex where
  node : Regex.Node
  groups : Nat
  source : String

namespace Regex

/-- Compile a pattern, refusing one nested too deeply or too large. -/
def compile (pattern : String) : Except SyntaxError Regex := do
  let (node, groups) ← parse pattern
  checkLimits node
  return ⟨node, groups, pattern⟩

/-- The program that finds matches. -/
def program (re : Regex) : Program := Program.ofNode re.source re.node re.groups

/-- Whether the pattern matches somewhere in the text. -/
def isMatch (re : Regex) (s : String) : Bool :=
  let text := s.toList.toArray
  reach text re.node (Nat.pow 2 (text.size + 1) - 1) != 0

/-- The text of a capture group of a match, by group number. -/
def group (text : Array Char) (caps : Array (Option Nat)) (i : Nat) : Option String :=
  match caps.getD (2 * i) none, caps.getD (2 * i + 1) none with
  | some a, some b => some (String.ofList ((text.extract a b).toList))
  | _, _ => none

/-- Replace every match by what `f` makes of its groups. -/
def replaceAll (re : Regex) (s : String) (f : (Nat → Option String) → String) : String :=
  let text := s.toList.toArray
  let prog := re.program
  let rec loop (fuel : Nat) (pos copied : Nat) (lastEnd : Option Nat) (acc : String) : String :=
    match fuel with
    | 0 => acc ++ String.ofList (text.extract copied text.size).toList
    | fuel + 1 =>
      if pos > text.size then acc ++ String.ofList (text.extract copied text.size).toList
      else
        match prog.searchFrom text pos with
        | none => acc ++ String.ofList (text.extract copied text.size).toList
        | some caps =>
          let a := (caps.getD 0 none).getD pos
          let b := (caps.getD 1 none).getD pos
          if a = b ∧ lastEnd = some b then loop fuel (b + 1) copied lastEnd acc
          else
            let acc := acc ++ String.ofList (text.extract copied a).toList ++ f (group text caps)
            loop fuel (if a = b then b + 1 else b) b (some b) acc
  loop (2 * text.size + 2) 0 0 none ""

end Regex

end ModuleBundler
