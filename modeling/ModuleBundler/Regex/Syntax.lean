import ModuleBundler.Text.Blank
import ModuleBundler.Text.Alphanumeric

/-!
# Regular expression syntax

Patterns in the lightweight backtracking-engine syntax. Classes are ASCII-minded: `\d \w \s`,
the POSIX names and case folding only know ASCII, while literals may be any character.

* Literals and escapes: every ASCII punctuation character may be escaped to stand for itself;
  `\a \f \t \n \r \v`, `\x41`, `\x{41}`, `\u0041`, `\U00000041`.
* `.`, bracket classes with ranges, negation and POSIX names; a `-` or `]` first in a class is a
  literal. Nested classes and the class operators `&&`, `--`, `~~` are refused.
* Anchors `^ $ \A \z`, word boundaries `\b \B \< \>` and `\b{start}`, `\b{end}`,
  `\b{start-half}`, `\b{end-half}`.
* Groups: capturing, named (`(?P<name>…)` or `(?<name>…)`), non-capturing, and inline flags
  `i m s U R x` (and `u`, accepted and ignored), for the rest of the group or inside `(?flags:…)`.
* Repetition `* + ? {n} {n,} {n,m}`, lazy with a trailing `?`; blanks may stand around the
  numbers of a counted repetition.

In verbose mode (`x`) blanks and `#` comments are skipped between items, and also inside escapes
and counted repetitions. The reader keeps its place in the pattern as a position; every error
is one of the fixed complaints in `SyntaxError`.

`Regex.parse` reads a pattern into a `Regex.Node` and the number of its groups. The tree is built
the way the engine builds it: a concatenation or alternation of one item is that item, an empty
concatenation is the empty pattern, and a repetition `{1}` is its body and `{0}` the empty
pattern.
-/

namespace ModuleBundler

namespace Regex

/-- A zero-width test. -/
inductive Assertion where
  | startText
  | endText
  /-- After a line feed or at the start. -/
  | startLine
  /-- Before a line feed or at the end. -/
  | endLine
  /-- After a line ending (a line feed, or a carriage return not followed by a line feed) or at
  the start. -/
  | startLineCRLF
  /-- Before a line ending (a carriage return, or a line feed not preceded by a carriage return)
  or at the end. -/
  | endLineCRLF
  | wordBoundary
  | notWordBoundary
  | wordStart
  | wordEnd
  /-- Not after a word character. -/
  | wordStartHalf
  /-- Not before a word character. -/
  | wordEndHalf
  deriving DecidableEq, Repr

/-- A pattern tree. A class is a sorted list of disjoint inclusive code point ranges; the empty
class matches nothing. -/
inductive Node where
  | empty
  | char (c : Char)
  | cls (ranges : List (Nat × Nat))
  | look (a : Assertion)
  | rep (body : Node) (min : Nat) (max : Option Nat) (greedy : Bool)
  | capture (index : Nat) (name : Option String) (body : Node)
  | concat (items : List Node)
  | alt (branches : List Node)
  deriving Repr, Inhabited

namespace Node

/-- The concatenation of items: the empty pattern for none, the item itself for one. -/
def concatOf : List Node → Node
  | [] => .empty
  | [x] => x
  | xs => .concat xs

/-- The alternation of branches: the empty class for none, the branch itself for one. -/
def altOf : List Node → Node
  | [] => .cls []
  | [x] => x
  | xs => .alt xs

/-- A repetition: `{0}` is the empty pattern and `{1}` the body itself. -/
def repOf (body : Node) (min : Nat) (max : Option Nat) (greedy : Bool) : Node :=
  if min = 0 ∧ max = some 0 then .empty
  else if min = 1 ∧ max = some 1 then body
  else .rep body min max greedy

end Node

/-- The flags in force while reading. -/
structure Flags where
  caseless : Bool := false
  multiLine : Bool := false
  dotAll : Bool := false
  swapGreed : Bool := false
  crlf : Bool := false
  verbose : Bool := false
  deriving Repr, Inhabited

/-- Why a text is not a pattern. -/
inductive SyntaxError where
  | tooMuchNesting
  | duplicateCaptureName
  | unclosedGroup
  | unclosedGroupQuestion
  | unopenedGroup
  | lookUnsupported
  | emptyFlags
  | missingGroupName
  | invalidGroupName
  | unclosedGroupName
  | emptyGroupName
  | flagUnrecognized
  | flagRepeatedNegation
  | flagDuplicate
  | flagUnexpectedEof
  | flagDanglingNegation
  | decimalNoDigits
  | decimalInvalid
  | hexBraceInvalidDigit
  | hexBraceUnexpectedEof
  | hexBraceEmpty
  | hexBraceInvalid
  | hexFixedUnexpectedEof
  | hexFixedInvalidDigit
  | hexFixedInvalid
  | hexUnexpectedEof
  | escapeUnexpectedEof
  | backrefUnsupported
  | unicodeClassUnsupported
  | escapeUnrecognized
  | uncountedRepSubMissing
  | countedRepSubMissing
  | countedRepUnclosed
  | countedRepMinUnclosed
  | countedRepCommaUnclosed
  | countedRepMinMaxUnclosed
  | countedRepInvalid
  | countedRepInvalidRange
  | classUnclosedAfterItem
  | classInvalidRangeItem
  | classInvalidItem
  | classUnclosedAfterDash
  | classUnclosedAfterNegation
  | classUnclosedAfterClosing
  | classInvalidRange
  | classUnclosed
  | classNestUnsupported
  | classIntersectionUnsupported
  | classDifferenceUnsupported
  | classSymdifferenceUnsupported
  | specialWordBoundaryUnclosed
  | specialWordBoundaryUnrecognized
  | specialWordOrRepUnexpectedEof
  | sizeLimit
  deriving DecidableEq, Repr

/-- The message of a syntax error. -/
def SyntaxError.message : SyntaxError → String
  | .tooMuchNesting => "pattern has too much nesting"
  | .duplicateCaptureName => "duplicate capture group name"
  | .unclosedGroup => "found open group without closing ')'"
  | .unclosedGroupQuestion => "expected closing ')', but got end of pattern"
  | .unopenedGroup => "found closing ')' without matching '('"
  | .lookUnsupported => "look-around is not supported"
  | .emptyFlags => "empty flag directive '(?)' is not allowed"
  | .missingGroupName => "expected capture group name, but got end of pattern"
  | .invalidGroupName => "invalid group name"
  | .unclosedGroupName => "expected end of capture group name, but got end of pattern"
  | .emptyGroupName => "empty capture group names are not allowed"
  | .flagUnrecognized => "unrecognized inline flag"
  | .flagRepeatedNegation => "inline flag negation cannot be repeated"
  | .flagDuplicate => "duplicate inline flag is not allowed"
  | .flagUnexpectedEof => "expected ':' or ')' to end inline flags, but got end of pattern"
  | .flagDanglingNegation => "inline flags cannot end with negation directive"
  | .decimalNoDigits => "expected decimal number, but found no digits"
  | .decimalInvalid => "got invalid decimal number"
  | .hexBraceInvalidDigit => "expected hexadecimal number in braces, but got non-hex digit"
  | .hexBraceUnexpectedEof => "expected hexadecimal number, but saw end of pattern before closing brace"
  | .hexBraceEmpty => "expected hexadecimal number in braces, but got no digits"
  | .hexBraceInvalid => "got invalid hexadecimal number in braces"
  | .hexFixedUnexpectedEof => "expected fixed length hexadecimal number, but saw end of pattern first"
  | .hexFixedInvalidDigit => "expected fixed length hexadecimal number, but got non-hex digit"
  | .hexFixedInvalid => "got invalid fixed length hexadecimal number"
  | .hexUnexpectedEof => "expected hexadecimal number, but saw end of pattern first"
  | .escapeUnexpectedEof => "saw start of escape sequence, but saw end of pattern"
  | .backrefUnsupported => "backreferences are not supported"
  | .unicodeClassUnsupported => "Unicode character classes are not supported"
  | .escapeUnrecognized => "unrecognized escape sequence"
  | .uncountedRepSubMissing => "uncounted repetition operator must be applied to a sub-expression"
  | .countedRepSubMissing => "counted repetition operator must be applied to a sub-expression"
  | .countedRepUnclosed => "found unclosed counted repetition operator"
  | .countedRepMinUnclosed => "found incomplete and unclosed counted repetition operator"
  | .countedRepCommaUnclosed => "found counted repetition operator with a comma that is unclosed"
  | .countedRepMinMaxUnclosed => "found counted repetition with min and max that is unclosed"
  | .countedRepInvalid => "expected closing brace for counted repetition, but got something else"
  | .countedRepInvalidRange => "found counted repetition with a min bigger than its max"
  | .classUnclosedAfterItem => "non-empty character class has no closing bracket"
  | .classInvalidRangeItem => "character class ranges must start and end with a single character"
  | .classInvalidItem => "invalid escape sequence in character class"
  | .classUnclosedAfterDash => "non-empty character class has no closing bracket after dash"
  | .classUnclosedAfterNegation => "negated character class has no closing bracket"
  | .classUnclosedAfterClosing => "character class begins with literal ']' but has no closing bracket"
  | .classInvalidRange => "invalid range in character class"
  | .classUnclosed => "found unclosed character class"
  | .classNestUnsupported => "nested character classes are not supported"
  | .classIntersectionUnsupported => "character class intersection is not supported"
  | .classDifferenceUnsupported => "character class difference is not supported"
  | .classSymdifferenceUnsupported => "character class symmetric difference is not supported"
  | .specialWordBoundaryUnclosed =>
    "special word boundary assertion is unclosed or has an invalid character"
  | .specialWordBoundaryUnrecognized => "special word boundary assertion is unrecognized"
  | .specialWordOrRepUnexpectedEof =>
    "found start of special word boundary or repetition without an end"
  | .sizeLimit => "compiled regex exceeded size limit"

/-- The largest code point. -/
def maxCodePoint : Nat := 0x10FFFF

/-- The complement of sorted disjoint ranges within all code points. -/
def complement (ranges : List (Nat × Nat)) : List (Nat × Nat) :=
  let (acc, next) := ranges.foldl (fun (acc, next) (lo, hi) =>
    (if next < lo then (next, lo - 1) :: acc else acc, max next (hi + 1))) ([], 0)
  (if next ≤ maxCodePoint then (next, maxCodePoint) :: acc else acc).reverse

/-- Insert a range into sorted disjoint ranges, merging overlaps and neighbours. -/
def insertRange (r : Nat × Nat) : List (Nat × Nat) → List (Nat × Nat)
  | [] => [r]
  | (lo, hi) :: rest =>
    if r.2 + 1 < lo then r :: (lo, hi) :: rest
    else if hi + 1 < r.1 then (lo, hi) :: insertRange r rest
    else insertRange (min lo r.1, max hi r.2) rest

/-- Sort and merge ranges. -/
def canonical (ranges : List (Nat × Nat)) : List (Nat × Nat) :=
  ranges.foldl (fun acc r => insertRange r acc) []

/-- The other case of the ASCII letters of a range: of its lower-case letters when it has any,
else of its upper-case letters. -/
def foldRange (r : Nat × Nat) : Option (Nat × Nat) :=
  let (lo, hi) := r
  if lo ≤ 122 ∧ 97 ≤ hi then some (max lo 97 - 32, min hi 122 - 32)
  else if lo ≤ 90 ∧ 65 ≤ hi then some (max lo 65 + 32, min hi 90 + 32)
  else none

/-- The ranges together with the other case of the letters of each. -/
def foldCase (ranges : List (Nat × Nat)) : List (Nat × Nat) :=
  canonical (ranges ++ ranges.filterMap foldRange)

/-- The ranges of a POSIX class name. -/
def posixRanges : String → Option (List (Nat × Nat))
  | "alnum" => some [(48, 57), (65, 90), (97, 122)]
  | "alpha" => some [(65, 90), (97, 122)]
  | "ascii" => some [(0, 127)]
  | "blank" => some [(9, 9), (32, 32)]
  | "cntrl" => some [(0, 31), (127, 127)]
  | "digit" => some [(48, 57)]
  | "graph" => some [(33, 126)]
  | "lower" => some [(97, 122)]
  | "print" => some [(32, 126)]
  | "punct" => some [(33, 47), (58, 64), (91, 96), (123, 126)]
  | "space" => some [(9, 13), (32, 32)]
  | "upper" => some [(65, 90)]
  | "word" => some [(48, 57), (65, 90), (95, 95), (97, 122)]
  | "xdigit" => some [(48, 57), (65, 70), (97, 102)]
  | _ => none

/-- Whether a character has a meaning of its own in patterns. -/
def isMeta (c : Char) : Bool := "\\.+*?()|[]\x7b\x7d^$#&-~".toList.contains c

/-- Whether a character may be escaped to stand for itself: a special character, or ASCII other
than a letter, a digit, `<` and `>`. -/
def isEscapable (c : Char) : Bool :=
  isMeta c || (c.toNat < 128 && !c.isAlphanum && c != '<' && c != '>')

/-- The value of a hex digit. -/
def hexDigitValue (c : Char) : Option Nat :=
  if '0' ≤ c ∧ c ≤ '9' then some (c.toNat - 48)
  else if 'a' ≤ c ∧ c ≤ 'f' then some (c.toNat - 87)
  else if 'A' ≤ c ∧ c ≤ 'F' then some (c.toNat - 55)
  else none

/-- The character of a code point, when it is one. -/
def scalar? (v : Nat) : Option Char :=
  if v > maxCodePoint ∨ (0xD800 ≤ v ∧ v < 0xE000) then none else some (Char.ofNat v)

/-- Whether a character may stand in a group name: first a letter or `_`, then also digits,
`.`, `[` and `]`. -/
def isCaptureChar (c : Char) (first : Bool) : Bool :=
  if first then c = '_' || Text.isAlphabetic c
  else c = '_' || c = '.' || c = '[' || c = ']' || Text.isAlphanumeric c

/-- The most groups and repetitions one inside another. -/
def nestLimit : Nat := 50

/-- The position after the first line feed at or after `p`, or the end. -/
def commentEnd (chars : Array Char) (p : Nat) : Nat :=
  match (chars.extract p chars.size).toList.findIdx? (· = '\n') with
  | some i => p + i + 1
  | none => chars.size

/-- The position after the blanks and `#` comments from `p`. -/
def skipSpace (chars : Array Char) (p : Nat) : Nat :=
  go chars.size p
where
  /-- Skip while there is fuel. -/
  go : Nat → Nat → Nat
    | 0, p => p
    | fuel + 1, p =>
      match chars[p]? with
      | some c =>
        if Text.isBlank c then go fuel (p + 1)
        else if c = '#' then go fuel (commentEnd chars (p + 1))
        else p
      | none => p

/-- The first character after the blanks of `cs` that is neither a blank nor the `#` opening a
comment; a comment is never closed, since its line feed counts as a blank. -/
def peekPast : List Char → Bool → Option Char
  | [], _ => none
  | c :: cs, inComment =>
    if Text.isBlank c then peekPast cs inComment
    else if !inComment && c = '#' then peekPast cs true
    else some c

/-- What the reader knows: the pattern, its place in it, the flags in force, the last group
number, the group names so far, and how many groups it is inside. -/
structure Reader where
  chars : Array Char
  pos : Nat := 0
  flags : Flags := {}
  captures : Nat := 0
  names : List String := []
  depth : Nat := 0

/-- Reading a pattern. -/
abbrev ReadM := StateT Reader (Except SyntaxError)

namespace Reader

/-- The character at the reader's place. -/
def cur : ReadM (Option Char) := do
  let r ← get
  return r.chars[r.pos]?

/-- Whether the whole pattern is read. -/
def isDone : ReadM Bool := do
  let r ← get
  return r.pos ≥ r.chars.size

/-- Whether the character at the reader's place is `c`. -/
def isAt (c : Char) : ReadM Bool := return (← cur) == some c

/-- Move past one character; whether there is more. -/
def bump : ReadM Bool := do
  let r ← get
  if r.pos ≥ r.chars.size then return false
  set { r with pos := r.pos + 1 }
  return r.pos + 1 < r.chars.size

/-- Skip blanks and comments in verbose mode. -/
def bumpSpace : ReadM Unit := do
  let r ← get
  if r.flags.verbose then set { r with pos := skipSpace r.chars r.pos }

/-- Move past one character and then past blanks in verbose mode; whether there is more. -/
def bumpAndBumpSpace : ReadM Bool := do
  if !(← bump) then return false
  bumpSpace
  return !(← isDone)

/-- The character after the one at the reader's place. -/
def peek : ReadM (Option Char) := do
  let r ← get
  return r.chars[r.pos + 1]?

/-- The next character after the one at the reader's place, past blanks in verbose mode. -/
def peekSpace : ReadM (Option Char) := do
  let r ← get
  if !r.flags.verbose then return r.chars[r.pos + 1]?
  if r.pos ≥ r.chars.size then return none
  return (peekPast (r.chars.extract (r.pos + 1) r.chars.size).toList false).orElse
    fun _ => r.chars[r.pos + 1]?

/-- Whether the pattern goes on with `s` at the reader's place. -/
def isPrefix (s : String) : ReadM Bool := do
  let r ← get
  return (r.chars.extract r.pos (r.pos + s.length)).toList == s.toList

/-- Move past `s` when the pattern goes on with it. -/
def bumpIf (s : String) : ReadM Bool := do
  if ← isPrefix s then
    modify fun r => { r with pos := r.pos + s.length }
    return true
  else return false

/-- Go back to a position. -/
def reset (p : Nat) : ReadM Unit := modify fun r => { r with pos := p }

/-- The flags in force. -/
def curFlags : ReadM Flags := return (← get).flags

/-- A literal character, both cases of an ASCII letter when case is ignored. -/
def literal (c : Char) : ReadM Node := do
  if (← curFlags).caseless then
    match foldRange (c.toNat, c.toNat) with
    | some other => return .cls (canonical [(c.toNat, c.toNat), other])
    | none => return .char c
  else return .char c

/-- Skip plain blanks, whatever the mode. -/
def skipBlanks (fuel : Nat) : ReadM Unit :=
  match fuel with
  | 0 => pure ()
  | fuel + 1 => do
    match ← cur with
    | some c => if Text.isBlank c then do let _ ← bump; skipBlanks fuel else pure ()
    | none => pure ()

/-- Skip blanks, moving also past verbose-mode blanks after each. -/
def skipBlanksSpaced (fuel : Nat) : ReadM Unit :=
  match fuel with
  | 0 => pure ()
  | fuel + 1 => do
    match ← cur with
    | some c => if Text.isBlank c then do let _ ← bumpAndBumpSpace; skipBlanksSpaced fuel else pure ()
    | none => pure ()

/-- Decimal digits, each followed by verbose-mode blanks. -/
def digits (fuel : Nat) (acc : List Char) : ReadM (List Char) :=
  match fuel with
  | 0 => return acc.reverse
  | fuel + 1 => do
    match ← cur with
    | some c =>
      if '0' ≤ c ∧ c ≤ '9' then do
        let _ ← bumpAndBumpSpace
        digits fuel (c :: acc)
      else return acc.reverse
    | none => return acc.reverse

/-- A decimal number of a counted repetition, blanks around it allowed; it must fit 32 bits. -/
def decimal : ReadM Nat := do
  let n := (← get).chars.size + 1
  skipBlanks n
  let ds ← digits n []
  skipBlanksSpaced n
  if ds.isEmpty then throw .decimalNoDigits
  let v : Nat := ds.foldl (fun a d => 10 * a + (d.toNat - 48)) 0
  if v ≥ 4294967296 then throw .decimalInvalid
  return v

/-- Fixed-length hex digits; the first is at the reader's place. -/
def hexDigits (count : Nat) (i : Nat) (acc : Nat) : ReadM Nat :=
  match count with
  | 0 => return acc
  | count + 1 => do
    if i > 0 then
      if !(← bumpAndBumpSpace) then throw .hexFixedUnexpectedEof
    match (← cur).bind hexDigitValue with
    | some d => hexDigits count (i + 1) (16 * acc + d)
    | none => throw .hexFixedInvalidDigit

/-- Hex digits up to `}`; the reader is at `{`. -/
def hexBraced (fuel : Nat) (acc : List Nat) : ReadM (List Nat) :=
  match fuel with
  | 0 => return acc.reverse
  | fuel + 1 => do
    if !(← bumpAndBumpSpace) then return acc.reverse
    match ← cur with
    | some '}' => return acc.reverse
    | some c =>
      match hexDigitValue c with
      | some d => hexBraced fuel (d :: acc)
      | none => throw .hexBraceInvalidDigit
    | none => return acc.reverse

/-- A hex escape; the reader is at its `x`, `u` or `U`. -/
def hex : ReadM Node := do
  let isX ← isAt 'x'
  let isU ← isAt 'u'
  let count := if isX then 2 else if isU then 4 else 8
  if !(← bumpAndBumpSpace) then throw .hexUnexpectedEof
  if ← isAt '{' then
    let ds ← hexBraced ((← get).chars.size + 1) []
    if ← isDone then throw .hexBraceUnexpectedEof
    let _ ← bumpAndBumpSpace
    if ds.isEmpty then throw .hexBraceEmpty
    let v := ds.foldl (fun a d => 16 * a + d) 0
    match (if v ≥ 4294967296 then none else scalar? v) with
    | some c => literal c
    | none => throw .hexBraceInvalid
  else
    let v ← hexDigits count 0 0
    let _ ← bumpAndBumpSpace
    match scalar? v with
    | some c => literal c
    | none => throw .hexFixedInvalid

/-- A Perl class `\d \s \w` or its negation; the reader is at its letter. -/
def perlClass (c : Char) : ReadM Node := do
  let _ ← bump
  let rs := if c = 'd' ∨ c = 'D' then [(48, 57)]
    else if c = 's' ∨ c = 'S' then [(9, 13), (32, 32)]
    else [(48, 57), (65, 90), (95, 95), (97, 122)]
  return .cls (if c.isUpper then complement rs else rs)

/-- Letters and dashes of a special word boundary. -/
def boundaryName (fuel : Nat) (acc : List Char) : ReadM (List Char) :=
  match fuel with
  | 0 => return acc.reverse
  | fuel + 1 => do
    match ← cur with
    | some c =>
      if c.isAlpha || c = '-' then do
        let _ ← bumpAndBumpSpace
        boundaryName fuel (c :: acc)
      else return acc.reverse
    | none => return acc.reverse

/-- A special word boundary after `\b`, the reader at `{`; none, with the reader back at `{`,
when what follows cannot be one (it is then a counted repetition). -/
def specialBoundary : ReadM (Option Node) := do
  let start := (← get).pos
  if !(← bumpAndBumpSpace) then throw .specialWordOrRepUnexpectedEof
  match ← cur with
  | some c =>
    if !(c.isAlpha || c = '-') then
      reset start
      return none
  | none => pure ()
  let name ← boundaryName ((← get).chars.size + 1) []
  if (← isDone) || !(← isAt '}') then throw .specialWordBoundaryUnclosed
  let _ ← bump
  match String.ofList name with
  | "start" => return some (.look .wordStart)
  | "end" => return some (.look .wordEnd)
  | "start-half" => return some (.look .wordStartHalf)
  | "end-half" => return some (.look .wordEndHalf)
  | _ => throw .specialWordBoundaryUnrecognized

/-- An escape; the reader is at its backslash. -/
def escape : ReadM Node := do
  if !(← bump) then throw .escapeUnexpectedEof
  let some c ← cur | throw .escapeUnexpectedEof
  if '0' ≤ c ∧ c ≤ '9' then throw .backrefUnsupported
  if c = 'p' ∨ c = 'P' then throw .unicodeClassUnsupported
  if c = 'x' ∨ c = 'u' ∨ c = 'U' then return (← hex)
  if "dswDSW".toList.contains c then return (← perlClass c)
  let _ ← bump
  if isEscapable c then return (← literal c)
  match c with
  | 'a' => literal (Char.ofNat 7)
  | 'f' => literal (Char.ofNat 12)
  | 't' => literal '\t'
  | 'n' => literal '\n'
  | 'r' => literal '\r'
  | 'v' => literal (Char.ofNat 11)
  | 'A' => return .look .startText
  | 'z' => return .look .endText
  | 'b' =>
    if !(← isDone) && (← isAt '{') then
      match ← specialBoundary with
      | some special => return special
      | none => return .look .wordBoundary
    else return .look .wordBoundary
  | 'B' => return .look .notWordBoundary
  | '<' => return .look .wordStart
  | '>' => return .look .wordEnd
  | _ => throw .escapeUnrecognized

/-- Move to the next `:` or to the end. -/
def toColon (fuel : Nat) : ReadM Unit :=
  match fuel with
  | 0 => pure ()
  | fuel + 1 => do
    if (← cur) != some ':' then
      if ← bump then toColon fuel

/-- A POSIX class `[:name:]` or `[:^name:]`; none, with the reader back at `[`, when there is
no such class here. -/
def posixClass : ReadM (Option (List (Nat × Nat))) := do
  let start := (← get).pos
  let fail : ReadM (Option (List (Nat × Nat))) := do
    reset start
    return none
  if !(← bump) || !(← isAt ':') then return (← fail)
  if !(← bump) then return (← fail)
  let mut negated := false
  if ← isAt '^' then
    negated := true
    if !(← bump) then return (← fail)
  let nameStart := (← get).pos
  toColon ((← get).chars.size + 1)
  if ← isDone then return (← fail)
  let r ← get
  let name := String.ofList (r.chars.extract nameStart r.pos).toList
  if !(← bumpIf ":]") then return (← fail)
  match posixRanges name with
  | some rs => return some (if negated then complement (canonical rs) else rs)
  | none => fail

/-- One item of a class: a character or an escape. -/
def classItem : ReadM Node := do
  if ← isAt '\\' then escape
  else
    let some c ← cur | throw .classUnclosed
    let _ ← bump
    return .char c

/-- The ranges an item adds to a class. -/
def itemRanges : Node → Except SyntaxError (List (Nat × Nat))
  | .char c => .ok [(c.toNat, c.toNat)]
  | .cls rs => .ok rs
  | _ => .error .classInvalidItem

/-- The character an item stands for as an end of a range. -/
def rangeEnd : Node → Except SyntaxError Nat
  | .char c => .ok c.toNat
  | _ => .error .classInvalidRangeItem

/-- An item of a class or a range of two items. -/
def classRange (union : List (Nat × Nat)) : ReadM (List (Nat × Nat)) := do
  let first ← classItem
  bumpSpace
  if ← isDone then throw .classUnclosedAfterItem
  let after ← peekSpace
  if !(← isAt '-') || after == some ']' || after == some '-' then
    return union ++ (← fromResult (itemRanges first))
  if !(← bumpAndBumpSpace) then throw .classUnclosedAfterDash
  let second ← classItem
  let lo ← fromResult (rangeEnd first)
  let hi ← fromResult (rangeEnd second)
  if lo > hi then throw .classInvalidRange
  return union ++ [(lo, hi)]
where
  /-- A result of a check, as a step of reading. -/
  fromResult {α : Type} (x : Except SyntaxError α) : ReadM α :=
    match x with
    | .ok a => pure a
    | .error e => throw e

/-- Leading dashes of a class, each a literal. -/
def classDashes (fuel : Nat) (union : List (Nat × Nat)) : ReadM (List (Nat × Nat)) :=
  match fuel with
  | 0 => return union
  | fuel + 1 => do
    if ← isAt '-' then
      let union := union ++ [(45, 45)]
      if !(← bumpAndBumpSpace) then throw .classUnclosedAfterDash
      classDashes fuel union
    else return union

/-- The items of a class up to its `]`. -/
def classItems (fuel : Nat) (negated : Bool) (union : List (Nat × Nat)) : ReadM Node :=
  match fuel with
  | 0 => throw .classUnclosed
  | fuel + 1 => do
    bumpSpace
    if ← isDone then throw .classUnclosed
    let some c ← cur | throw .classUnclosed
    let next ← peek
    if c = '[' then
      match ← posixClass with
      | some rs => classItems fuel negated (union ++ rs)
      | none => throw .classNestUnsupported
    else if c = ']' then
      let _ ← bump
      let rs := canonical union
      let rs := if (← curFlags).caseless then foldCase rs else rs
      return .cls (if negated then complement rs else rs)
    else if c = '&' ∧ next = some '&' then throw .classIntersectionUnsupported
    else if c = '-' ∧ next = some '-' then throw .classDifferenceUnsupported
    else if c = '~' ∧ next = some '~' then throw .classSymdifferenceUnsupported
    else classItems fuel negated (← classRange union)

/-- A bracket class; the reader is at its `[`. -/
def bracketClass : ReadM Node := do
  if !(← bumpAndBumpSpace) then throw .classUnclosed
  let mut negated := false
  if ← isAt '^' then
    if !(← bumpAndBumpSpace) then throw .classUnclosedAfterNegation
    negated := true
  let n := (← get).chars.size + 1
  let mut union ← classDashes n []
  if union.isEmpty && (← isAt ']') then
    union := [(93, 93)]
    if !(← bumpAndBumpSpace) then throw .classUnclosedAfterClosing
  classItems n negated union

/-- A repetition `?`, `*` or `+` of the last item. -/
def uncounted (concat : List Node) : ReadM (List Node) := do
  let some sub := concat.getLast? | throw .uncountedRepSubMissing
  let isQuestion ← isAt '?'
  let isStar ← isAt '*'
  let (lo, hi) : Nat × Option Nat := if isQuestion then (0, some 1) else if isStar then (0, none) else (1, none)
  let mut greedy := true
  if (← bump) && (← isAt '?') then
    greedy := false
    let _ ← bump
  if (← curFlags).swapGreed then greedy := !greedy
  return concat.dropLast ++ [Node.repOf sub lo hi greedy]

/-- A counted repetition of the last item; the reader is at `{`. -/
def counted (concat : List Node) : ReadM (List Node) := do
  let some sub := concat.getLast? | throw .countedRepSubMissing
  if !(← bumpAndBumpSpace) then throw .countedRepUnclosed
  let lo ← decimal
  let mut hi := some lo
  if ← isDone then throw .countedRepMinUnclosed
  if ← isAt ',' then
    if !(← bumpAndBumpSpace) then throw .countedRepCommaUnclosed
    if !(← isAt '}') then hi := some (← decimal) else hi := none
    if ← isDone then throw .countedRepMinMaxUnclosed
  if !(← isAt '}') then throw .countedRepInvalid
  let mut greedy := true
  if (← bumpAndBumpSpace) && (← isAt '?') then
    greedy := false
    let _ ← bump
  if (← curFlags).swapGreed then greedy := !greedy
  if hi.any (lo > ·) then throw .countedRepInvalidRange
  return concat.dropLast ++ [Node.repOf sub lo hi greedy]

/-- Any character but a line ending, or any character at all with the `s` flag. -/
def dot : ReadM Node := do
  let f ← curFlags
  if f.dotAll then return .cls [(0, maxCodePoint)]
  else if f.crlf then return .cls [(0, 9), (11, 12), (14, maxCodePoint)]
  else return .cls [(0, 9), (11, maxCodePoint)]

/-- A single item: an escape, `.`, an anchor or a literal. -/
def primitive : ReadM Node := do
  let some c ← cur | throw .escapeUnexpectedEof
  if c = '\\' then return (← escape)
  let _ ← bump
  let f ← curFlags
  match c with
  | '.' => dot
  | '^' => return .look (if f.multiLine then (if f.crlf then .startLineCRLF else .startLine) else .startText)
  | '$' => return .look (if f.multiLine then (if f.crlf then .endLineCRLF else .endLine) else .endText)
  | _ => literal c

/-- Name characters up to `>` or the end. -/
def nameChars (fuel : Nat) (start : Nat) : ReadM Unit :=
  match fuel with
  | 0 => pure ()
  | fuel + 1 => do
    let some c ← cur | pure ()
    if c = '>' then return
    if !isCaptureChar c ((← get).pos = start) then throw .invalidGroupName
    if ← bump then nameChars fuel start

/-- A group name up to its `>`, which is read too; it must be new. -/
def captureName : ReadM String := do
  if ← isDone then throw .missingGroupName
  let start := (← get).pos
  nameChars ((← get).chars.size + 1) start
  let stop := (← get).pos
  if ← isDone then throw .unclosedGroupName
  let _ ← bump
  let r ← get
  let name := String.ofList (r.chars.extract start stop).toList
  if name.isEmpty then throw .emptyGroupName
  if r.names.contains name then throw .duplicateCaptureName
  set { r with names := r.names ++ [name] }
  return name

/-- The number of the next group. -/
def nextCapture : ReadM Nat := do
  let r ← get
  set { r with captures := r.captures + 1 }
  return r.captures + 1

/-- Set or clear one flag. -/
def setFlag (f : Flags) (c : Char) (on : Bool) : Option Flags :=
  match c with
  | 'i' => some { f with caseless := on }
  | 'm' => some { f with multiLine := on }
  | 's' => some { f with dotAll := on }
  | 'U' => some { f with swapGreed := on }
  | 'R' => some { f with crlf := on }
  | 'x' => some { f with verbose := on }
  | 'u' => some f
  | _ => none

/-- Inline flags up to `:` or `)`. -/
def flagItems (fuel : Nat) (f : Flags) (negate lastNegation : Bool) (seen : List Char) :
    ReadM Flags :=
  match fuel with
  | 0 => throw .flagUnexpectedEof
  | fuel + 1 => do
    let some c ← cur | throw .flagUnexpectedEof
    if c = ':' ∨ c = ')' then
      if lastNegation then throw .flagDanglingNegation
      return f
    let (f, negate, lastNegation, seen) ← if c = '-' then do
        if negate then throw .flagRepeatedNegation
        pure (f, true, true, seen)
      else do
        let some f := setFlag f c !negate | throw .flagUnrecognized
        if seen.contains c then throw .flagDuplicate
        pure (f, negate, false, c :: seen)
    if !(← bump) then throw .flagUnexpectedEof
    flagItems fuel f negate lastNegation seen

/-- Enter one more level of nesting; the level before. -/
def enter : ReadM Nat := do
  let r ← get
  if r.depth > nestLimit then throw .tooMuchNesting
  set { r with depth := r.depth + 1 }
  return r.depth

/-- Leave a level of nesting. -/
def leave : ReadM Unit := modify fun r => { r with depth := r.depth - 1 }

mutual

/-- An alternation up to `)` or the end of the pattern. -/
def inner (fuel : Nat) : ReadM Node :=
  match fuel with
  | 0 => throw .tooMuchNesting
  | fuel + 1 => do
    let depth ← enter
    let node ← items fuel depth [] []
    leave
    return node

/-- The items of an alternation; `alternates` are the branches before, `concat` the items of
the branch under way. -/
def items (fuel : Nat) (depth : Nat) (alternates : List Node) (concat : List Node) : ReadM Node :=
  match fuel with
  | 0 => throw .tooMuchNesting
  | fuel + 1 => do
    bumpSpace
    let finish := Node.altOf (alternates ++ [Node.concatOf concat])
    let some c ← cur | return finish
    if c = '(' then
      let old ← curFlags
      let sub? ← group fuel
      let concat := match sub? with
        | some sub => concat ++ [sub]
        | none => concat
      if sub?.isSome then modify fun r => { r with flags := old }
      if !(← isAt ')') then throw .unclosedGroup
      let _ ← bump
      items fuel depth alternates concat
    else if c = ')' then
      if depth = 0 then throw .unopenedGroup
      return finish
    else if c = '|' then
      let _ ← bump
      items fuel depth (alternates ++ [Node.concatOf concat]) []
    else if c = '[' then
      let cls ← bracketClass
      items fuel depth alternates (concat ++ [cls])
    else if c = '?' ∨ c = '*' ∨ c = '+' then
      items fuel depth alternates (← uncounted concat)
    else if c = '{' then
      items fuel depth alternates (← counted concat)
    else
      let p ← primitive
      items fuel depth alternates (concat ++ [p])

/-- A group after its `(`: none for a directive that only sets flags. The reader ends at the
group's `)` or where one is missing. -/
def group (fuel : Nat) : ReadM (Option Node) :=
  match fuel with
  | 0 => throw .tooMuchNesting
  | fuel + 1 => do
    let _ ← bumpAndBumpSpace
    if (← isPrefix "?=") || (← isPrefix "?!") || (← isPrefix "?<=") || (← isPrefix "?<!") then
      throw .lookUnsupported
    let named ← do
      if ← bumpIf "?P<" then pure true
      else bumpIf "?<"
    if named then
      let index ← nextCapture
      let name ← captureName
      let sub ← inner fuel
      return some (.capture index (some name) sub)
    else if ← bumpIf "?" then
      if ← isDone then throw .unclosedGroupQuestion
      let start := (← get).pos
      let f ← flagItems ((← get).chars.size + 1) (← curFlags) false false []
      modify fun r => { r with flags := f }
      if ← isAt ')' then
        if (← get).pos = start then throw .emptyFlags
        return none
      else
        let _ ← bump
        return some (← inner fuel)
    else
      let index ← nextCapture
      let sub ← inner fuel
      return some (.capture index none sub)

end

end Reader

/-- A whole pattern, with the number of its groups, the whole match counted. -/
def parse (pattern : String) : Except SyntaxError (Node × Nat) :=
  let chars := pattern.toList.toArray
  match (Reader.inner (4 * chars.size + 200)).run { chars := chars } with
  | .ok (node, r) => .ok (node, r.captures + 1)
  | .error e => .error e

end Regex

end ModuleBundler
