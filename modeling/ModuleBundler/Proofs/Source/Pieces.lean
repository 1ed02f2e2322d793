import ModuleBundler.Source.Requires
import Mathlib

/-!
# Source texts as pieces

The dependency scan reads characters one at a time; what a module declares is said on tokens.
Here a text is a list of pieces: identifiers, punctuation, blanks, quoted literals, line and
block comments, and the dependency sites themselves, each written out by `Piece.render`.
`declared` lists what such a text declares: the specifiers of its sites, each once, in order of
first appearance, the empty ones left out.

Not every list of pieces is a text the scan reads the same way. `wellFormed` says which are:
each piece is well formed on its own (`Piece.valid`), no identifier runs across the border of two
pieces and no slash opens a comment with the piece after it (`Piece.fits`), a site the scan
refuses after a dot has no dot before it, an `export` that starts no `export ... from` site
reaches one of the characters that end its search before any `from` (`exportEnds`), and the word
`require` as an identifier (`foo.require(m)`, `require(name)`, a bare `require`) stands after a
dot or calls no single literal (`requireWordsInert`). Inside a literal no comment opens and no
keyword stands alone (`quiet`), since the scan does not know where literals are. The clause of an
`import` or `export` site is read as characters: words other than `from`, punctuation other than
the characters that end the search, and blanks, so a comment in it is written through its
characters and holds no quote and no word `from`; the clause keeps to the length the scan looks
ahead.
-/

namespace ModuleBundler

namespace Requires

/-- The words the scan acts on wherever they stand alone. -/
def keywords : List String := ["require", "import", "export"]

/-- `require`, as characters. -/
def requireChars : List Char := ['r', 'e', 'q', 'u', 'i', 'r', 'e']

/-- `import`, as characters. -/
def importChars : List Char := ['i', 'm', 'p', 'o', 'r', 't']

/-- `export`, as characters. -/
def exportChars : List Char := ['e', 'x', 'p', 'o', 'r', 't']

/-- `from`, as characters. -/
def fromChars : List Char := ['f', 'r', 'o', 'm']

/-- The keywords as characters. -/
def keywordChars : List (List Char) := [requireChars, importChars, exportChars]

/-! ## Literals -/

/-- A character of a quoted literal as written: itself, or escaped by a backslash, standing for
the character after it. -/
inductive LitChar where
  | plain (c : Char)
  | escaped (c : Char)
  deriving DecidableEq

namespace LitChar

/-- The characters written for it. -/
def raw : LitChar → List Char
  | plain c => [c]
  | escaped c => ['\\', c]

/-- The character it stands for. -/
def char : LitChar → Char
  | plain c => c
  | escaped c => c

/-- A plain character does not close the literal, end the line or start an escape. -/
def fits (q : Char) : LitChar → Bool
  | plain c => c != q && c != '\n' && c != '\\'
  | escaped _ => true

end LitChar

/-- A quoted literal: its quote and its characters. -/
structure Literal where
  quote : Char
  body : List LitChar
  deriving DecidableEq

namespace Literal

/-- The characters written between the quotes. -/
def raw (l : Literal) : List Char := l.body.flatMap LitChar.raw

/-- The literal as written. -/
def render (l : Literal) : List Char := l.quote :: l.raw ++ [l.quote]

/-- The text the literal stands for. -/
def text (l : Literal) : String := String.ofList (l.body.map LitChar.char)

/-- Opened by a quote, and closed only by its last character. -/
def wellFormed (l : Literal) : Bool := isQuote l.quote && l.body.all (LitChar.fits l.quote)

end Literal

/-- Whether `w` stands alone at the start of `cs`, after the character `prev`: the characters
around it, when there are any, are no identifier characters. -/
def standsAlone (prev : Option Char) (cs : List Char) (w : List Char) : Bool :=
  !(prev.map isIdent).getD false && cs.take w.length == w &&
    !((cs.drop w.length).head?.map isIdent).getD false

/-- Characters in which the scan finds nothing to act on: no `//` or `/*` opens a comment, and
no keyword stands alone. `prev` is the character before them. -/
def quiet (prev : Option Char) : List Char → Bool
  | [] => true
  | c :: cs =>
    !(c == '/' && (cs.head? == some '/' || cs.head? == some '*')) &&
      keywordChars.all (fun kw => !standsAlone prev (c :: cs) kw) && quiet (some c) cs

/-- Whether `*/` occurs in the characters. -/
def closesComment : List Char → Bool
  | '*' :: '/' :: _ => true
  | _ :: cs => closesComment cs
  | [] => false

/-! ## Pieces -/

/-- A token of the clause of an `import ... from` or `export ... from` site. -/
inductive ClauseTok where
  | word (w : List Char)
  | punct (c : Char)
  | blank (c : Char)
  deriving DecidableEq

namespace ClauseTok

/-- The token as written. -/
def render : ClauseTok → List Char
  | word w => w
  | punct c => [c]
  | blank c => [c]

/-- Whether the token is a word. -/
def isWord : ClauseTok → Bool
  | word _ => true
  | _ => false

end ClauseTok

/-- A piece of a source text. -/
inductive Piece where
  /-- An identifier other than `import` and `export`: the word `require` is one where the scan
  reads no call (`requireWordsInert`). -/
  | word (w : List Char)
  /-- A character that is no identifier character, blank or quote. -/
  | punct (c : Char)
  | blank (c : Char)
  | literal (l : Literal)
  /-- `//` and the rest of the line, with the line feed ending it. -/
  | lineComment (text : List Char)
  | blockComment (text : List Char)
  /-- `export` starting a declaration: `export default`, `export const` and the like. -/
  | exportWord
  /-- `require (l)`, with blanks around the parenthesis and the literal. -/
  | require (b₁ b₂ : List Char) (l : Literal) (b₃ : List Char)
  /-- `import (l)`, loaded on demand. -/
  | importCall (b₁ b₂ : List Char) (l : Literal) (b₃ : List Char)
  /-- `import l`. -/
  | importBare (b : List Char) (l : Literal)
  /-- `import clause from l`. -/
  | importFrom (b : List Char) (clause : List ClauseTok) (b' : List Char) (l : Literal)
  /-- `export clause from l`. -/
  | exportFrom (clause : List ClauseTok) (b : List Char) (l : Literal)
  deriving DecidableEq

namespace Piece

/-- The piece as written. -/
def render : Piece → List Char
  | word w => w
  | punct c => [c]
  | blank c => [c]
  | literal l => l.render
  | lineComment t => '/' :: '/' :: t ++ ['\n']
  | blockComment t => '/' :: '*' :: t ++ ['*', '/']
  | exportWord => exportChars
  | require b₁ b₂ l b₃ => requireChars ++ b₁ ++ '(' :: b₂ ++ l.render ++ b₃ ++ [')']
  | importCall b₁ b₂ l b₃ => importChars ++ b₁ ++ '(' :: b₂ ++ l.render ++ b₃ ++ [')']
  | importBare b l => importChars ++ b ++ l.render
  | importFrom b cl b' l =>
    importChars ++ b ++ cl.flatMap ClauseTok.render ++ fromChars ++ b' ++ l.render
  | exportFrom cl b l => exportChars ++ cl.flatMap ClauseTok.render ++ fromChars ++ b ++ l.render

/-- The specifiers the piece loads with the module. -/
def loaded : Piece → List String
  | require _ _ l _ => [l.text]
  | importBare _ l => [l.text]
  | importFrom _ _ _ l => [l.text]
  | exportFrom _ _ l => [l.text]
  | _ => []

/-- The specifiers the piece loads on demand. -/
def onDemand : Piece → List String
  | importCall _ _ l _ => [l.text]
  | _ => []

end Piece

/-- A text of pieces as written. -/
def render (ps : List Piece) : List Char := ps.flatMap Piece.render

/-- What a text of pieces declares: the non-empty specifiers of its sites loaded with the module,
each once, in order of first appearance, and one group for each non-empty specifier loaded on
demand. -/
def declared (ps : List Piece) : Dependencies :=
  ⟨((ps.flatMap Piece.loaded).filter (· != "")).eraseDups,
    ((ps.flatMap Piece.onDemand).filter (· != "")).eraseDups.map fun s => [s]⟩

/-! ## Well-formed texts -/

/-- Blank characters. -/
def blanks (b : List Char) : Bool := b.all Text.isBlank

/-- Identifier characters, at least one. -/
def isIdentifier (w : List Char) : Bool := !w.isEmpty && w.all isIdent

/-- A character that is no identifier character, blank or quote. -/
def isPunct (c : Char) : Bool := !isIdent c && !Text.isBlank c && !isQuote c

namespace ClauseTok

/-- A word other than `from`, punctuation other than `stops`, or a blank. -/
def valid (stops : List Char) : ClauseTok → Bool
  | word w => isIdentifier w && w != fromChars
  | punct c => isPunct c && !stops.contains c
  | blank c => Text.isBlank c

end ClauseTok

/-- The clause of a site before its `from`: valid tokens, no two words side by side, no word
last, shorter than the scan looks ahead. -/
def clause (stops : List Char) (cap : Nat) (cl : List ClauseTok) : Bool :=
  cl.all (ClauseTok.valid stops) &&
    (cl.zip cl.tail).all (fun tt => !(tt.1.isWord && tt.2.isWord)) &&
    !(cl.getLast?.map ClauseTok.isWord).getD false &&
    decide ((cl.flatMap ClauseTok.render).length < cap)

namespace Piece

/-- Whether the piece is well formed on its own. -/
def valid : Piece → Bool
  | word w => isIdentifier w && (w == requireChars || !keywordChars.contains w)
  | punct c => isPunct c
  | blank c => Text.isBlank c
  | literal l => l.wellFormed && quiet none l.raw
  | lineComment t => !t.contains '\n'
  | blockComment t => !closesComment t
  | exportWord => true
  | require b₁ b₂ l b₃ => blanks b₁ && blanks b₂ && l.wellFormed && blanks b₃
  | importCall b₁ b₂ l b₃ => blanks b₁ && blanks b₂ && l.wellFormed && blanks b₃
  | importBare b l => blanks b && l.wellFormed
  | importFrom b cl b' l =>
    -- the clause starts where the blanks end, with no parenthesis, and no word touches `import`
    blanks b && clause [';'] 1000 cl &&
      (match cl.head? with
        | some (.word _) => !b.isEmpty
        | some (.punct c) => c != '('
        | _ => false) &&
      blanks b' && l.wellFormed
  | exportFrom cl b l =>
    clause [';', '=', '('] 500 cl && !(cl.head?.map ClauseTok.isWord).getD true &&
      blanks b && l.wellFormed

/-- Whether the scan refuses the piece as a site after a dot. -/
def refusesDot : Piece → Bool
  | require .. => true
  | importBare .. => true
  | importFrom .. => true
  | _ => false

/-- Whether two pieces may stand side by side: no identifier runs across their border, a slash
opens no comment with the piece after it, and a site the scan refuses after a dot has none
before it. -/
def fits (p p' : Piece) : Bool :=
  !((p.render.getLast?.map isIdent).getD false && (p'.render.head?.map isIdent).getD false) &&
    (p != punct '/' || (p'.render.head? != some '/' && p'.render.head? != some '*')) &&
    (!p'.refusesDot || p.render.getLast? != some '.')

/-- Whether the piece ends the search for `from` after an `export`: it starts with `;`, `=`,
`(` or a quote, or it is a call of `require` or `import` or a bare `import`. -/
def stopsExport : Piece → Bool
  | punct c => c == ';' || c == '=' || c == '('
  | literal _ => true
  | require .. => true
  | importCall .. => true
  | importBare .. => true
  | _ => false

/-- Whether the search for `from` after an `export` passes the piece without stopping. -/
def inExport : Piece → Bool
  | word w => w != fromChars
  | punct c => !(c == ';' || c == '=' || c == '(')
  | blank _ => true
  | _ => false

end Piece

/-- What follows an `export` that starts no site: pieces the search for `from` passes, up to one
that stops it or the end. -/
def exportEnds : List Piece → Bool
  | [] => true
  | p :: rest => p.stopsExport || (p.inExport && exportEnds rest)

/-- The pieces after each `export` that starts no site end its search. -/
def exportsEnd : List Piece → Bool
  | [] => true
  | p :: rest => (p != .exportWord || exportEnds rest) && exportsEnd rest

/-- Whether the pieces, blanks aside, start with `)`. -/
def closesCall : List Piece → Bool
  | .blank _ :: rest => closesCall rest
  | .punct ')' :: _ => true
  | _ => false

/-- Whether the pieces, blanks aside, start with one literal and `)`. -/
def literalArg : List Piece → Bool
  | .blank _ :: rest => literalArg rest
  | .literal _ :: rest => closesCall rest
  | _ => false

/-- Whether the pieces, blanks aside, call the word before them with one literal: `(`, the
literal and `)`. -/
def callsLiteral : List Piece → Bool
  | .blank _ :: rest => callsLiteral rest
  | .punct '(' :: rest => literalArg rest
  | _ => false

/-- Each word `require` of the pieces, `prev` the piece before them, stands after a dot or calls
no single literal: the scan reads no site there, where a `require` piece is the site it reads. -/
def requireWordsInert : Option Piece → List Piece → Bool
  | _, [] => true
  | prev, p :: rest =>
    (p != .word requireChars || prev.bind (·.render.getLast?) == some '.' || !callsLiteral rest) &&
      requireWordsInert (some p) rest

/-- A text of pieces the scan reads piece by piece. -/
def wellFormed (ps : List Piece) : Bool :=
  ps.all Piece.valid && (ps.zip ps.tail).all (fun pp => pp.1.fits pp.2) && exportsEnd ps &&
    requireWordsInert none ps

end Requires

end ModuleBundler
