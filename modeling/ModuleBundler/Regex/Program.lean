import ModuleBundler.Regex.Syntax

/-!
# Regular expression programs

A pattern tree is compiled into a program for a thread machine: each instruction either tests
the next character against a class, splits into two continuations with the first one preferred,
jumps, records the position in a capture slot, tests a zero-width assertion, or accepts.
Group `i` saves into slots `2 i` and `2 i + 1`; a counted repetition is unrolled into copies of
its body.
-/

namespace ModuleBundler

namespace Regex

/-- One instruction of a program. -/
inductive Inst where
  | cls (ranges : List (Nat × Nat)) (negated : Bool) (next : Nat)
  | split (first second : Nat)
  | jump (next : Nat)
  | save (slot : Nat) (next : Nat)
  | check (a : Assertion) (next : Nat)
  | accept
  deriving Repr, Inhabited

/-- Instructions emitted so far; a fragment is emitted with its exit already known. -/
abbrev Emitter := Array Inst

/-- Emit an instruction and give its index. -/
def emit (prog : Emitter) (i : Inst) : Emitter × Nat := (prog.push i, prog.size)

/-- A fragment builder: emits a fragment whose exit is the given index, gives its entry. -/
abbrev Fragment := Emitter → Nat → Emitter × Nat

/-- Emit `count` nested optional copies of a fragment before `next`. -/
def emitOptional (body : Fragment) (prog : Emitter) (next : Nat) (count : Nat) (greedy : Bool) :
    Emitter × Nat :=
  match count with
  | 0 => (prog, next)
  | count + 1 =>
    let (prog, inner) := emitOptional body prog next count greedy
    let (prog, bodyEntry) := body prog inner
    emit prog (if greedy then .split bodyEntry next else .split next bodyEntry)

/-- Emit `count` required copies of a fragment before `next`. -/
def emitCopies (body : Fragment) (prog : Emitter) (next : Nat) (count : Nat) : Emitter × Nat :=
  match count with
  | 0 => (prog, next)
  | count + 1 =>
    let (prog, entry) := body prog next
    emitCopies body prog entry count

/-- Emit a repetition of a fragment between `min` and `max` times. -/
def emitRepetition (body : Fragment) (prog : Emitter) (next : Nat) (min : Nat) (max : Option Nat)
    (greedy : Bool) : Emitter × Nat :=
  -- the optional tail first, then the required copies in front of it
  let (prog, tail) := match max with
    | none =>
      -- a loop: a split that enters the body, whose exit comes back to the split
      let (prog, loop) := emit prog (.jump 0)
      let (prog, bodyEntry) := body prog loop
      let split := if greedy then Inst.split bodyEntry next else Inst.split next bodyEntry
      (prog.setIfInBounds loop split, loop)
    | some hi => emitOptional body prog next (hi - min) greedy
  emitCopies body prog tail min

mutual

/-- Emit the fragment of a node whose exit is `next`; gives its entry. -/
def compileNode (prog : Emitter) (next : Nat) : Node → Emitter × Nat
  | .empty => (prog, next)
  | .char c => emit prog (.cls [(c.toNat, c.toNat)] false next)
  | .cls rs => emit prog (.cls rs false next)
  | .look a => emit prog (.check a next)
  | .capture i _ body =>
    let (prog, close) := emit prog (.save (2 * i + 1) next)
    let (prog, entry) := compileNode prog close body
    emit prog (.save (2 * i) entry)
  | .concat items => compileSeq prog next items
  | .alt branches => compileAlt prog next branches
  | .rep body min max greedy =>
    emitRepetition (fun p n => compileNode p n body) prog next min max greedy

/-- Emit a sequence; the later items first, since each item's exit is the next one's entry. -/
def compileSeq (prog : Emitter) (next : Nat) : List Node → Emitter × Nat
  | [] => (prog, next)
  | n :: rest =>
    let (prog, restEntry) := compileSeq prog next rest
    compileNode prog restEntry n

/-- Emit an alternation: each branch preferred over the ones after it. -/
def compileAlt (prog : Emitter) (next : Nat) : List Node → Emitter × Nat
  | [] => (prog, next)
  | [b] => compileNode prog next b
  | b :: rest =>
    let (prog, restEntry) := compileAlt prog next rest
    let (prog, entry) := compileNode prog next b
    emit prog (.split entry restEntry)

end

/-- A compiled pattern: its program, its entry, the number of capture slots, and its text. -/
structure Program where
  insts : Array Inst
  entry : Nat
  slots : Nat
  source : String
  deriving Repr

/-- Compile a pattern tree with `groups` groups, the whole match counted. -/
def Program.ofNode (source : String) (node : Node) (groups : Nat) : Program :=
  let (prog, acceptAt) := emit #[] .accept
  let (prog, entry) := compileNode prog acceptAt node
  ⟨prog, entry, 2 * groups, source⟩

end Regex

end ModuleBundler
