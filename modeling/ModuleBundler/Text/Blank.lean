/-!
# Blank characters

The Unicode `White_Space` property: tab to carriage return, space, next line, no-break space,
ogham space mark, the spaces from en quad to hair space, line and paragraph separators, narrow
no-break space, medium mathematical space and ideographic space. Trimming, and splitting text
into words, use this class.
-/

namespace ModuleBundler

namespace Text

/-- Whether a character has the `White_Space` property. -/
def isBlank (c : Char) : Bool :=
  let n := c.toNat
  (9 ≤ n && n ≤ 13) || n == 0x20 || n == 0x85 || n == 0xA0 || n == 0x1680
    || (0x2000 ≤ n && n ≤ 0x200A) || n == 0x2028 || n == 0x2029 || n == 0x202F
    || n == 0x205F || n == 0x3000

/-- The characters without the leading blanks. -/
def dropBlanks (cs : List Char) : List Char := cs.dropWhile isBlank

/-- The text without its leading blanks. -/
def trimStart (s : String) : String := String.ofList (dropBlanks s.toList)

/-- The text without its trailing blanks. -/
def trimEnd (s : String) : String := String.ofList (dropBlanks s.toList.reverse).reverse

/-- The text without leading and trailing blanks. -/
def trim (s : String) : String := trimEnd (trimStart s)

/-- The words of a text: its maximal runs of non-blank characters, in order. -/
def words (s : String) : List String :=
  go s.toList [] []
where
  go : List Char → List Char → List String → List String
    | [], cur, acc => (if cur.isEmpty then acc else String.ofList cur.reverse :: acc).reverse
    | c :: cs, cur, acc =>
      if isBlank c then go cs [] (if cur.isEmpty then acc else String.ofList cur.reverse :: acc)
      else go cs (c :: cur) acc

end Text

end ModuleBundler
