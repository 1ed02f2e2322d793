import ModuleBundler.Json.Value

/-!
# Reading JSON

A strict reader: blanks are space, tab, line feed and carriage return; literals are `null`,
`true` and `false`; numbers have no leading zero, no lone point and no plus sign in front; strings
take the escapes `\" \\ \/ \b \f \n \r \t \uXXXX` (a surrogate pair joins into one character, a
lone surrogate is refused) and refuse raw control characters; a comma before a closing bracket is
refused; nothing but blanks may follow the value; a container opened inside 127 others is refused.

An integer that fits 64 bits is read as an integer. Every other number is read the way a fast
reader does: its first digits, as many as fit 64 bits, become a double, which is then scaled by
the nearest double to a power of ten in one rounded multiplication or division (below `1e-308`
in steps of `1e308` first). A number whose scaling overflows is refused; one whose exponent does
not fit 32 bits is zero, or refused when it is positive and the digits are not all zero.

A complaint names the line and the column, counted in bytes, of the character it is about.
Objects come out with sorted keys, the last of two fields with one key winning.
-/

namespace ModuleBundler

namespace Json

/-- Why a text is not JSON: the complaint, and the input left after the place it is about. -/
structure ReadError where
  message : String
  rest : List Char
  /-- Bytes of the first character of `rest` read before the complaint. -/
  extraBytes : Nat := 0
  deriving Repr

namespace ReadError

/-- A complaint about the next character, or about the end when nothing is left. -/
def atNext (message : String) (cs : List Char) : ReadError := ⟨message, cs.drop 1, 0⟩

/-- A complaint about what has been read, `rest` being what follows. -/
def after (message : String) (rest : List Char) : ReadError := ⟨message, rest, 0⟩

/-- A complaint about the first byte of the character `c`, which `rest` follows. -/
def afterByte (message : String) (c : Char) (rest : List Char) : ReadError :=
  if c.toNat < 128 then ⟨message, rest, 0⟩ else ⟨message, c :: rest, 1⟩

end ReadError

/-- A reader of a prefix of the characters. -/
abbrev Reader (α : Type) := List Char → Except ReadError (α × List Char)

/-- Whether a character is a JSON blank. -/
def isBlank (c : Char) : Bool := c = ' ' || c = '\t' || c = '\n' || c = '\r'

/-- The characters after the leading blanks. -/
def skipBlanks (cs : List Char) : List Char := cs.dropWhile isBlank

/-- The value of a hex digit. -/
def hexValue (c : Char) : Option Nat :=
  if '0' ≤ c ∧ c ≤ '9' then some (c.toNat - 48)
  else if 'a' ≤ c ∧ c ≤ 'f' then some (c.toNat - 87)
  else if 'A' ≤ c ∧ c ≤ 'F' then some (c.toNat - 55)
  else none

/-- The input after its first `n` bytes: the characters left and how many bytes of the first of
them are already taken; none when fewer than `n` bytes are left. -/
def dropBytes : Nat → List Char → Option (List Char × Nat)
  | 0, cs => some (cs, 0)
  | _ + 1, [] => none
  | n + 1, c :: r =>
    if c.utf8Size ≤ n + 1 then dropBytes (n + 1 - c.utf8Size) r else some (c :: r, n + 1)

/-- The four hex digits of an escape: their value and the rest, or the complaint about them. -/
def readHex4 (cs : List Char) : Except ReadError (Nat × List Char) :=
  match dropBytes 4 cs with
  | none => .error (.after "EOF while parsing a string" [])
  | some (rest, extra) =>
    match cs with
    | a :: b :: c :: d :: r =>
      match hexValue a, hexValue b, hexValue c, hexValue d with
      | some w, some x, some y, some z => .ok (((w * 16 + x) * 16 + y) * 16 + z, r)
      | _, _, _, _ => .error ⟨"invalid escape", rest, extra⟩
    | _ => .error ⟨"invalid escape", rest, extra⟩

/-- Whether a code unit is a leading surrogate. -/
def isLeadingSurrogate (n : Nat) : Bool := 0xD800 ≤ n && n ≤ 0xDBFF

/-- Whether a code unit is a trailing surrogate. -/
def isTrailingSurrogate (n : Nat) : Bool := 0xDC00 ≤ n && n ≤ 0xDFFF

/-- Reading four hex digits takes at least four characters. -/
theorem readHex4_rest {cs : List Char} {n : Nat} {r : List Char}
    (h : readHex4 cs = .ok (n, r)) : r.length + 4 ≤ cs.length := by
  unfold readHex4 at h
  split at h
  · cases h
  · split at h
    · split at h
      · simp only [Except.ok.injEq, Prod.mk.injEq] at h
        obtain ⟨-, rfl⟩ := h
        simp
      · cases h
    · cases h

/-- The character of a `\u` escape, its four digits next: a trailing surrogate alone is refused,
and a leading one must be followed by the escape of a trailing one. -/
def readUnicodeEscape (cs : List Char) : Except ReadError (Char × List Char) :=
  match readHex4 cs with
  | .error e => .error e
  | .ok (hi, r) =>
    if isTrailingSurrogate hi then .error (.after "lone leading surrogate in hex escape" r)
    else if !isLeadingSurrogate hi then .ok (Char.ofNat hi, r)
    else
      match r with
      | '\\' :: 'u' :: r2 =>
        match readHex4 r2 with
        | .error e => .error e
        | .ok (lo, r3) =>
          if isTrailingSurrogate lo then
            .ok (Char.ofNat (0x10000 + (hi - 0xD800) * 0x400 + (lo - 0xDC00)), r3)
          else .error (.after "lone leading surrogate in hex escape" r3)
      | '\\' :: c :: r2 => .error (.afterByte "unexpected end of hex escape" c r2)
      | c :: r1 =>
        if r1.isEmpty && c = '\\' then .error (.after "EOF while parsing a string" [])
        else .error (.afterByte "unexpected end of hex escape" c r1)
      | [] => .error (.after "EOF while parsing a string" [])

/-- Reading a `\u` escape takes at least one character, so the string reader ends. -/
theorem readUnicodeEscape_rest {cs : List Char} {c : Char} {r : List Char}
    (h : readUnicodeEscape cs = .ok (c, r)) : r.length < cs.length := by
  unfold readUnicodeEscape at h
  split at h
  · cases h
  · rename_i hi r1 h1
    have h1' := readHex4_rest h1
    split at h
    · cases h
    · split at h
      · simp only [Except.ok.injEq, Prod.mk.injEq] at h
        obtain ⟨-, rfl⟩ := h
        omega
      · split at h
        · split at h
          · cases h
          · rename_i lo r3 h3
            have h3' := readHex4_rest h3
            split at h
            · simp only [Except.ok.injEq, Prod.mk.injEq] at h
              obtain ⟨-, rfl⟩ := h
              simp at h1'
              omega
            · cases h
        · cases h
        · split at h <;> cases h
        · cases h

/-- The characters of a string up to its closing quote, the opening quote already read. -/
def readStringBody : List Char → List Char → Except ReadError (String × List Char)
  | [], _ => .error (.after "EOF while parsing a string" [])
  | '"' :: rest, acc => .ok (String.ofList acc.reverse, rest)
  | '\\' :: rest, acc =>
    match rest with
    | [] => .error (.after "EOF while parsing a string" [])
    | '"' :: r => readStringBody r ('"' :: acc)
    | '\\' :: r => readStringBody r ('\\' :: acc)
    | '/' :: r => readStringBody r ('/' :: acc)
    | 'b' :: r => readStringBody r (Char.ofNat 8 :: acc)
    | 'f' :: r => readStringBody r (Char.ofNat 12 :: acc)
    | 'n' :: r => readStringBody r ('\n' :: acc)
    | 'r' :: r => readStringBody r ('\r' :: acc)
    | 't' :: r => readStringBody r ('\t' :: acc)
    | 'u' :: r =>
      match h : readUnicodeEscape r with
      | .ok (c, r') =>
        have := readUnicodeEscape_rest h
        readStringBody r' (c :: acc)
      | .error e => .error e
    | c :: r => .error (.afterByte "invalid escape" c r)
  | c :: rest, acc =>
    if c.toNat < 32 then .error (.after "control character (\\u0000-\\u001F) found while parsing a string" rest)
    else readStringBody rest (c :: acc)
termination_by cs => cs.length

/-- The rest of a literal word after its first letter: each letter must follow. -/
def readIdent : List Char → List Char → Except ReadError (List Char)
  | [], cs => .ok cs
  | _ :: _, [] => .error (.after "EOF while parsing a value" [])
  | w :: ws, c :: cs => if c = w then readIdent ws cs else .error (.afterByte "expected ident" c cs)

/-- The largest unsigned 64-bit integer. -/
def u64Max : Nat := Nat.pow 2 64 - 1

/-- The largest signed 32-bit integer. -/
def i32Max : Int := Nat.pow 2 31 - 1

/-- An exponent held in 32 bits: out of range it stays at the nearest end. -/
def saturate32 (e : Int) : Int := max (-(Nat.pow 2 31 : Int)) (min i32Max e)

/-- The value of a decimal digit character. -/
def digitValue (c : Char) : Nat := c.toNat - 48

/-- Ten to the power `k`, as the nearest double. -/
def powTen (k : Nat) : Double := BinaryFloat.ofDecimal false 1 k

/-- `significand * 10 ^ exponent` the way a fast reader computes it: the significand rounded to a
double, then multiplied or divided by the nearest double to `10 ^ |exponent|`, each step rounded;
below `1e-308` it is first divided by `1e308` until the exponent is in reach or the value is
zero. None when the product overflows. -/
def scaleByTen (significand : Nat) (exponent : Int) : Option Double :=
  go 8 (Double.ofNat significand) exponent
where
  /-- The scaling of `f`; each step at least halves the value's exponent or ends. -/
  go : Nat → Double → Int → Option Double
    | 0, f, _ => some f
    | fuel + 1, f, e =>
      if e.natAbs ≤ 308 then
        if e ≥ 0 then
          let g := f.mul (powTen e.natAbs)
          if g.isFinite then some g else none
        else some (f.div (powTen e.natAbs))
      else if f.isZero then some f
      else if e ≥ 0 then none
      else go fuel (f.div (powTen 308)) (e + 308)

/-- A double read from digits and a decimal exponent, with its sign; `rest` follows it. -/
def finishNumber (positive : Bool) (significand : Nat) (exponent : Int) (rest : List Char) :
    Except ReadError (JsonNumber × List Char) :=
  match scaleByTen significand exponent with
  | some f => .ok (.double (if positive then f else f.neg), rest)
  | none => .error (.after "number out of range" rest)

/-- The digits of an exponent, `exp` so far; an exponent beyond 32 bits makes the number zero, or
out of range when it is positive and the digits are not all zero. -/
def exponentDigits (positive : Bool) (significand : Nat) (start : Int) (positiveExp : Bool)
    (exp : Nat) : List Char → Except ReadError (JsonNumber × List Char)
  | c :: r =>
    if c.isDigit then
      if ((exp * 10 + digitValue c : Nat) : Int) > i32Max then
        if significand ≠ 0 ∧ positiveExp then .error (.after "number out of range" r)
        else
          let zero : Double := BinaryFloat.ofDecimal (!positive) 0 0
          .ok (.double zero, r.dropWhile Char.isDigit)
      else exponentDigits positive significand start positiveExp (exp * 10 + digitValue c) r
    else
      finishNumber positive significand (saturate32 (if positiveExp then start + exp else start - exp)) (c :: r)
  | [] => finishNumber positive significand (saturate32 (if positiveExp then start + exp else start - exp)) []

/-- An exponent after its `e`: an optional sign, then at least one digit. -/
def exponentPart (positive : Bool) (significand : Nat) (start : Int) (cs : List Char) :
    Except ReadError (JsonNumber × List Char) :=
  let (positiveExp, r) := match cs with
    | '+' :: r => (true, r)
    | '-' :: r => (false, r)
    | r => (true, r)
  match r with
  | [] => .error (.after "EOF while parsing a value" [])
  | c :: r' =>
    if c.isDigit then exponentDigits positive significand start positiveExp (digitValue c) r'
    else .error (.afterByte "invalid number" c r')

/-- What may follow the digits of a fraction: an exponent, or the end of the number. -/
def afterFraction (positive : Bool) (significand : Nat) (exponent : Int) (cs : List Char) :
    Except ReadError (JsonNumber × List Char) :=
  match cs with
  | c :: r => if c = 'e' ∨ c = 'E' then exponentPart positive significand exponent r
    else finishNumber positive significand exponent cs
  | [] => finishNumber positive significand exponent []

/-- The digits after a point, `taken` of them kept so far; a digit that would overflow 64 bits
and every digit after it are dropped. At least one digit must follow the point. -/
def fractionDigits (positive : Bool) (significand : Nat) (before : Int) (taken : Nat) :
    List Char → Except ReadError (JsonNumber × List Char)
  | c :: r =>
    if c.isDigit then
      if significand * 10 + digitValue c > u64Max then
        afterFraction positive significand (before - taken) ((c :: r).dropWhile Char.isDigit)
      else fractionDigits positive (significand * 10 + digitValue c) before (taken + 1) r
    else if taken = 0 then .error (.atNext "invalid number" (c :: r))
    else afterFraction positive significand (before - taken) (c :: r)
  | [] =>
    if taken = 0 then .error (.atNext "EOF while parsing a value" [])
    else afterFraction positive significand (before - taken) []

/-- The digits of an integer beyond 64 bits: each one counts as a factor of ten. -/
def longInteger (positive : Bool) (significand : Nat) (extra : Nat) :
    List Char → Except ReadError (JsonNumber × List Char)
  | c :: r =>
    if c.isDigit then longInteger positive significand (extra + 1) r
    else if c = '.' then fractionDigits positive significand extra 0 r
    else if c = 'e' ∨ c = 'E' then exponentPart positive significand extra r
    else finishNumber positive significand extra (c :: r)
  | [] => finishNumber positive significand extra []

/-- What follows the digits of an integer that fits 64 bits: a fraction, an exponent, or
nothing, when it is an integer; minus zero, and a negative integer beyond 64 bits, are doubles. -/
def integerTail (positive : Bool) (significand : Nat) (cs : List Char) :
    Except ReadError (JsonNumber × List Char) :=
  match cs with
  | '.' :: r => fractionDigits positive significand 0 0 r
  | c :: r =>
    if c = 'e' ∨ c = 'E' then exponentPart positive significand 0 r
    else asInteger
  | [] => asInteger
where
  /-- The number as an integer. -/
  asInteger : Except ReadError (JsonNumber × List Char) :=
    if positive then .ok (.nat significand, cs)
    else if significand = 0 then .ok (.double (Double.ofNat 0).neg, cs)
    else if significand ≤ Nat.pow 2 63 then .ok (.negative (-(significand : Int)), cs)
    else .ok (.double (Double.ofNat significand).neg, cs)

/-- The digits of an integer, `acc` so far. -/
def integerDigits (positive : Bool) (acc : Nat) : List Char → Except ReadError (JsonNumber × List Char)
  | c :: r =>
    if c.isDigit then
      if acc * 10 + digitValue c > u64Max then longInteger positive acc 0 (c :: r)
      else integerDigits positive (acc * 10 + digitValue c) r
    else integerTail positive acc (c :: r)
  | [] => integerTail positive acc []

/-- A number after its sign: a lone zero or digits not starting with zero, then the rest. -/
def readUnsigned (positive : Bool) (cs : List Char) : Except ReadError (JsonNumber × List Char) :=
  match cs with
  | [] => .error (.after "EOF while parsing a value" [])
  | '0' :: r =>
    match r with
    | c :: _ => if c.isDigit then .error (.atNext "invalid number" r) else integerTail positive 0 r
    | [] => integerTail positive 0 []
  | c :: r =>
    if c.isDigit then integerDigits positive (digitValue c) r
    else .error (.afterByte "invalid number" c r)

/-- A number, its sign not yet read. -/
def readNumber (cs : List Char) : Except ReadError (Json × List Char) :=
  let read := match cs with
    | '-' :: r => readUnsigned false r
    | r => readUnsigned true r
  read.map fun (n, r) => (.num n, r)

/-- A literal word, its first letter next. -/
def readWord (word : String) (v : Json) (cs : List Char) : Except ReadError (Json × List Char) :=
  (readIdent (word.toList.drop 1) (cs.drop 1)).map fun r => (v, r)

mutual

/-- One value after optional blanks; `depth` is one more than the containers that may still
open. -/
def readValue (fuel depth : Nat) (cs : List Char) : Except ReadError (Json × List Char) :=
  match fuel with
  | 0 => .error (.atNext "recursion limit exceeded" cs)
  | fuel + 1 =>
    let cs := skipBlanks cs
    match cs with
    | [] => .error (.atNext "EOF while parsing a value" [])
    | 'n' :: _ => readWord "null" .null cs
    | 't' :: _ => readWord "true" (.bool true) cs
    | 'f' :: _ => readWord "false" (.bool false) cs
    | '"' :: rest => (readStringBody rest []).map fun (s, r) => (.str s, r)
    | '[' :: rest =>
      match depth with
      | d + 2 => (readItems fuel (d + 1) true rest []).map fun (xs, r) => (.arr xs, r)
      | _ => .error (.atNext "recursion limit exceeded" cs)
    | '{' :: rest =>
      match depth with
      | d + 2 => (readFields fuel (d + 1) true rest []).map fun (fs, r) => (sortedObject fs, r)
      | _ => .error (.atNext "recursion limit exceeded" cs)
    | c :: _ =>
      if c = '-' ∨ c.isDigit then readNumber cs else .error (.atNext "expected value" cs)

/-- Items of an array after its `[`, separated by commas, up to the closing `]`. -/
def readItems (fuel depth : Nat) (first : Bool) (cs : List Char) (acc : List Json) :
    Except ReadError (List Json × List Char) :=
  match fuel with
  | 0 => .error (.atNext "recursion limit exceeded" cs)
  | fuel + 1 =>
    let item (r : List Char) : Except ReadError (List Json × List Char) :=
      match readValue fuel depth r with
      | .error e => .error e
      | .ok (v, r') => readItems fuel depth false r' (v :: acc)
    match skipBlanks cs with
    | [] => .error (.atNext "EOF while parsing a list" [])
    | ']' :: r => .ok (acc.reverse, r)
    | r@(c :: rest) =>
      if first then item r
      else if c = ',' then
        match skipBlanks rest with
        | [] => .error (.atNext "EOF while parsing a value" [])
        | r'@(']' :: _) => .error (.atNext "trailing comma" r')
        | r' => item r'
      else .error (.atNext "expected `,` or `]`" r)

/-- Fields of an object after its `{`, separated by commas, up to the closing `}`. -/
def readFields (fuel depth : Nat) (first : Bool) (cs : List Char) (acc : List (String × Json)) :
    Except ReadError (List (String × Json) × List Char) :=
  match fuel with
  | 0 => .error (.atNext "recursion limit exceeded" cs)
  | fuel + 1 =>
    let field (r : List Char) : Except ReadError (List (String × Json) × List Char) :=
      match r with
      | '"' :: r1 =>
        match readStringBody r1 [] with
        | .error e => .error e
        | .ok (key, r2) =>
          match skipBlanks r2 with
          | ':' :: r3 =>
            match readValue fuel depth r3 with
            | .error e => .error e
            | .ok (v, r4) => readFields fuel depth false r4 ((key, v) :: acc)
          | [] => .error (.atNext "EOF while parsing an object" [])
          | r3 => .error (.atNext "expected `:`" r3)
      | _ => .error (.atNext "key must be a string" r)
    match skipBlanks cs with
    | [] => .error (.atNext "EOF while parsing an object" [])
    | '}' :: r => .ok (acc.reverse, r)
    | r@(c :: rest) =>
      if first then field r
      else if c = ',' then
        match skipBlanks rest with
        | [] => .error (.atNext "EOF while parsing a value" [])
        | r'@('}' :: _) => .error (.atNext "trailing comma" r')
        | r' => field r'
      else .error (.atNext "expected `,` or `\x7d`" r)

end

/-- Line and byte column, counted from one, of the end of a prefix of the text. -/
def lineColumn (consumed : List Char) : Nat × Nat :=
  consumed.foldl (fun (l, c) ch => if ch = '\n' then (l + 1, 0) else (l, c + ch.utf8Size)) (1, 0)

/-- A complaint with the line and column of its place in the text `cs`. -/
def ReadError.locate (cs : List Char) (e : ReadError) : String :=
  let (l, c) := lineColumn (cs.take (cs.length - e.rest.length))
  let m := e.message
  let c := c + e.extraBytes
  s!"{m} at line {l} column {c}"

/-- How deep containers may nest, plus one. -/
def nestingLimit : Nat := 128

/-- Read a whole text as one value. -/
def parse (text : String) : Except String Json :=
  let cs := text.toList
  match readValue (2 * cs.length + 2) nestingLimit cs with
  | .error e => .error (e.locate cs)
  | .ok (v, rest) =>
    match skipBlanks rest with
    | [] => .ok v
    | r => .error ((ReadError.atNext "trailing characters" r).locate cs)

end Json

end ModuleBundler
