import ModuleBundler.Text.Blank
import ModuleBundler.Text.Alphanumeric

/-!
# Declared dependencies

A lexical scan of a source text for the module specifiers it depends on, without parsing it:

* `require('spec')`, not preceded by a dot;
* `import x from 'spec'`, `import {a} from 'spec'` and `import 'spec'`, not preceded by a dot;
* `export ... from 'spec'`, the clause stopping at `;`, a quote, `=` or `(`;
* `import('spec')` and `System.import('spec')`, each one a group of its own loaded on demand.

Keywords stand alone: no identifier character (a letter or digit of any script, `_` or `$`)
touches them. Line and block comments are skipped. A specifier is a quoted literal on one line
in which a backslash takes the next character literally. Empty specifiers are dropped, and
each specifier counts once, at its first appearance.
-/

namespace ModuleBundler

/-- The specifiers a module depends on. -/
structure Dependencies where
  /-- Specifiers loaded with the module, in order of first appearance. -/
  sync : List String
  /-- One group per site loading a specifier on demand. -/
  asyncGroups : List (List String)
  deriving Inhabited, Repr

namespace Requires

/-- Whether a character may be part of an identifier. -/
def isIdent (c : Char) : Bool := Text.isAlphanumeric c || c = '_' || c = '$'

/-- Whether a character opens or closes a literal. -/
def isQuote (c : Char) : Bool := c = '"' || c = '\''

/-- Whether `kw` stands at `pos` as a word of its own. -/
def keywordAt (chars : Array Char) (pos : Nat) (kw : String) : Bool :=
  let k := kw.toList
  pos + k.length ≤ chars.size
    && !(pos > 0 && (chars[pos - 1]?.map isIdent).getD false)
    && (chars.extract pos (pos + k.length)).toList == k
    && !((chars[pos + k.length]?.map isIdent).getD false)

/-- Whether the character before `pos` is a dot. -/
def precededByDot (chars : Array Char) (pos : Nat) : Bool :=
  pos > 0 && chars[pos - 1]? == some '.'

/-- The first position at or after `i` that is not a blank. -/
def skipBlanks (chars : Array Char) (i : Nat) : Nat :=
  if h : i < chars.size then
    if Text.isBlank chars[i] then skipBlanks chars (i + 1) else i
  else i
termination_by chars.size - i

/-- The first line feed at or after `i`, or the end. -/
def lineEnd (chars : Array Char) (i : Nat) : Nat :=
  if h : i < chars.size then
    if chars[i] = '\n' then i else lineEnd chars (i + 1)
  else i
termination_by chars.size - i

/-- The first `*/` at or after `i` (its star), or the last position. -/
def blockEnd (chars : Array Char) (i : Nat) : Nat :=
  if h : i + 1 < chars.size then
    if chars[i] = '*' ∧ chars[i + 1] = '/' then i else blockEnd chars (i + 1)
  else i
termination_by chars.size - i

/-- The body of a literal closed by `quote`, read from `j`; the text and the position after
the closing quote. -/
def literalBody (chars : Array Char) (quote : Char) (j : Nat) (acc : List Char) :
    Option (String × Nat) :=
  if h : j < chars.size then
    let c := chars[j]
    if c = quote then some (String.ofList acc.reverse, j + 1)
    else if c = '\n' then none
    else if h2 : c = '\\' ∧ j + 1 < chars.size then
      literalBody chars quote (j + 2) (chars[j + 1] :: acc)
    else literalBody chars quote (j + 1) (c :: acc)
  else none
termination_by chars.size - j

/-- The quoted literal starting at `i`: its text and the position after it. -/
def quoted (chars : Array Char) (i : Nat) : Option (String × Nat) :=
  match chars[i]? with
  | some q => if isQuote q then literalBody chars q (i + 1) [] else none
  | none => none

/-- `( 'spec' )`, the opening parenthesis already read. -/
def stringArg (chars : Array Char) (start : Nat) : Option (String × Nat) :=
  match quoted chars (skipBlanks chars start) with
  | some (spec, stop) =>
    let close := skipBlanks chars stop
    if chars[close]? == some ')' then some (spec, close + 1) else none
  | none => none

/-- Look for `from 'spec'` between `i` and `limit`, giving up at a character `stop` refuses. -/
def fromClause (chars : Array Char) (stop : Char → Bool) (limit i : Nat) : Option (String × Nat) :=
  if _h : i < limit then
    match chars[i]? with
    | some c =>
      if stop c then none
      else if keywordAt chars i "from" then quoted chars (skipBlanks chars (i + 4))
      else fromClause chars stop limit (i + 1)
    | none => none
  else none
termination_by limit - i

/-- `import x from 'spec'`, `import {a} from 'spec'` or `import 'spec'`, after the keyword. -/
def importStatement (chars : Array Char) (start : Nat) : Option (String × Nat) :=
  (quoted chars start).orElse fun _ =>
    fromClause chars (fun c => c = ';' || isQuote c) (min (start + 1000) chars.size) start

/-- `export ... from 'spec'`, after the keyword, stopping at the end of the statement. -/
def exportFrom (chars : Array Char) (start : Nat) : Option (String × Nat) :=
  fromClause chars (fun c => c = ';' || isQuote c || c = '=' || c = '(')
    (min (start + 500) chars.size) start

/-- What the scan has collected: the dependencies so far (each list reversed). -/
structure Found where
  sync : List String
  groups : List (List String)
  onDemand : List String

/-- Record a specifier loaded with the module. -/
def Found.addSync (f : Found) (spec : String) : Found :=
  if spec.isEmpty || f.sync.contains spec then f else { f with sync := spec :: f.sync }

/-- Record a specifier loaded on demand. -/
def Found.addGroup (f : Found) (spec : String) : Found :=
  if spec.isEmpty || f.onDemand.contains spec then f
  else { f with groups := [spec] :: f.groups, onDemand := spec :: f.onDemand }

/-- One step of the scan at `i`: the position to go on from and what was found. -/
def scanAt (chars : Array Char) (i : Nat) (f : Found) : Nat × Found :=
  let at1 := chars[i + 1]?
  if chars[i]? == some '/' && at1 == some '/' then (lineEnd chars i, f)
  else if chars[i]? == some '/' && at1 == some '*' then (blockEnd chars (i + 2) + 2, f)
  else if keywordAt chars i "import" then
    let after := skipBlanks chars (i + 6)
    if chars[after]? == some '(' then
      match stringArg chars (after + 1) with
      | some (spec, stop) => (stop, f.addGroup spec)
      | none => (i + 6, f)
    else if !precededByDot chars i then
      match importStatement chars after with
      | some (spec, stop) => (stop, f.addSync spec)
      | none => (i + 6, f)
    else (i + 6, f)
  else if keywordAt chars i "export" then
    match exportFrom chars (i + 6) with
    | some (spec, stop) => (stop, f.addSync spec)
    | none => (i + 6, f)
  else if keywordAt chars i "require" && !precededByDot chars i then
    let after := skipBlanks chars (i + 7)
    if chars[after]? == some '(' then
      match stringArg chars (after + 1) with
      | some (spec, stop) => (stop, f.addSync spec)
      | none => (i + 7, f)
    else (i + 7, f)
  else (i + 1, f)

/-- Scan from `i` on; every step moves forward, so `fuel` above the characters left suffices. -/
def scan (chars : Array Char) : Nat → Nat → Found → Found
  | 0, _, f => f
  | fuel + 1, i, f =>
    if i < chars.size then
      let (next, f) := scanAt chars i f
      scan chars fuel (max next (i + 1)) f
    else f

end Requires

/-- The dependencies a source text declares. -/
def extractRequires (source : String) : Dependencies :=
  let chars := source.toList.toArray
  let f := Requires.scan chars (chars.size + 1) 0 ⟨[], [], []⟩
  ⟨f.sync.reverse, f.groups.reverse⟩

end ModuleBundler
